/-
  ClusterAgent/Proofs/Registration.lean
  =====================================
  **What a sequence of registrations comes to.**

  A registry is built by registering one handler after the other.  Looking a pair up
  gives the handler that was registered for it last, and nothing if there was none:
  `lookup_ofCalls`.
-/
import ClusterAgent.Registry

namespace ClusterAgent.Registry

variable {η : Type u}

def ofCalls (calls : List ((String × String) × η)) : Registry η :=
  calls.foldl (fun r c => r.register c.1.1 c.1.2 c.2) empty

/-- The handler that was registered last for a pair. -/
def lastOf (calls : List ((String × String) × η)) (resource action : String) : Option η :=
  (calls.reverse.find? (·.1 = (resource, action))).map (·.2)

theorem find?_put (pair key : String × String) (handler : η)
    (entries : List ((String × String) × η)) :
    (put pair handler entries).find? (·.1 = key) =
      if pair = key then some (pair, handler) else entries.find? (·.1 = key) := by
  induction entries with
  | nil => by_cases h : pair = key <;> simp [put, h]
  | cons e rest ih =>
    obtain ⟨p, old⟩ := e
    by_cases hp : p = pair
    · subst hp
      by_cases h : p = key <;> simp [put, h]
    · by_cases h : p = key
      · have hne : pair ≠ key := fun heq => hp (h.trans heq.symm)
        simp [put, h, hne, hne.symm]
      · simp [put, hp, h, ih]

/-- Registering a pair changes what is found under it and nothing else. -/
theorem lookup_register (r : Registry η) (resource action resource' action' : String)
    (handler : η) :
    (r.register resource action handler).lookup resource' action' =
      if (resource, action) = (resource', action') then some handler
      else r.lookup resource' action' := by
  unfold lookup register
  rw [find?_put]
  split <;> rfl

theorem lookup_foldl_register (calls : List ((String × String) × η)) (r : Registry η)
    (resource action : String) :
    (calls.foldl (fun r c => r.register c.1.1 c.1.2 c.2) r).lookup resource action =
      (lastOf calls resource action).or (r.lookup resource action) := by
  induction calls generalizing r with
  | nil => rfl
  | cons c calls ih =>
    rw [List.foldl_cons, ih, lookup_register]
    simp only [lastOf, List.reverse_cons, List.find?_append]
    cases calls.reverse.find? (·.1 = (resource, action)) with
    | some later => rfl
    | none =>
      by_cases h : c.1 = (resource, action) <;> simp [h]

/-- **The last registration counts.** -/
theorem lookup_ofCalls (calls : List ((String × String) × η)) (resource action : String) :
    (ofCalls calls).lookup resource action = lastOf calls resource action := by
  rw [ofCalls, lookup_foldl_register]
  cases lastOf calls resource action <;> rfl

end ClusterAgent.Registry
