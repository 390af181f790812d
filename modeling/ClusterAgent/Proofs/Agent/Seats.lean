/-
  ClusterAgent/Proofs/Agent/Seats.lean
  ====================================
  **Who holds an identifier.**

  The table of identifiers lists exactly the bridges between their claim and their
  release, and no identifier twice (`Seats`).  A claim takes a free identifier, a
  release gives up the entry of its own bridge, and no other step touches the table.
-/
import ClusterAgent.Proofs.Agent.Story
import Mathlib.Data.List.Nodup

namespace ClusterAgent.Agent

open Handler (ShellNumber)

variable {σ : Type}

/-- The identifier and the guard that a bridge holds. -/
def holder? (a : Agent σ) (n : Nat) : Option (String × Guard) :=
  a.shells[n]?.bind fun s => s.phase.guard?.map (s.id, ·)

/-- Other tasks leave everybody the identifier that he holds. -/
theorem holder?_beside {a b : Agent σ} (h : Beside a b) : b.holder? = a.holder? := by
  funext n
  unfold holder?
  cases hs : a.shells[n]? with
  | some s =>
    obtain ⟨s', hs', hkept⟩ := h.old n s hs
    rw [hs']
    simp [hkept.id, hkept.phase]
  | none =>
    cases hs' : b.shells[n]? with
    | none => rfl
    | some s' =>
      obtain ⟨hphase, -, -⟩ := h.new n hs s' hs'
      simp [hphase, Phase.guard?]

/-- The entries of the table are those of the bridges that hold a guard, and no two have the same
    identifier. -/
structure Seats (table : SessionTable ShellNumber) (holder : Nat → Option (String × Guard)) :
    Prop where
  held : ∀ n id guard, holder n = some (id, guard) →
    guard.id = id ∧ (id, guard.token, n) ∈ table.slots
  taken : ∀ slot ∈ table.slots, holder slot.2.2 = some (slot.1, ⟨slot.1, slot.2.1⟩)
  distinct : (table.slots.map Prod.fst).Nodup

theorem contains_iff (table : SessionTable ShellNumber) (id : String) :
    table.contains id = true ↔ ∃ slot ∈ table.slots, slot.1 = id := by
  simp [SessionTable.contains, List.find?_isSome]

theorem eq_of_distinct {slots : List (String × Nat × ShellNumber)}
    (hdistinct : (slots.map Prod.fst).Nodup) {slot slot' : String × Nat × ShellNumber}
    (h : slot ∈ slots) (h' : slot' ∈ slots) (hid : slot.1 = slot'.1) : slot = slot' :=
  List.inj_on_of_nodup_map hdistinct h h' hid

/-- Two bridges that hold the same identifier are one. -/
theorem Seats.single {table : SessionTable ShellNumber} {holder : Nat → Option (String × Guard)}
    (hseats : Seats table holder) {n m : Nat} {id : String} {guard guard' : Guard}
    (hn : holder n = some (id, guard)) (hm : holder m = some (id, guard')) : n = m := by
  obtain ⟨-, hn'⟩ := hseats.held n id guard hn
  obtain ⟨-, hm'⟩ := hseats.held m id guard' hm
  have heq := eq_of_distinct hseats.distinct hn' hm' rfl
  simp only [Prod.mk.injEq] at heq
  exact heq.2.2

/-- An identifier is taken as long as somebody holds it. -/
theorem Seats.contains_iff {table : SessionTable ShellNumber}
    {holder : Nat → Option (String × Guard)} (hseats : Seats table holder) (id : String) :
    table.contains id = true ↔ ∃ n guard, holder n = some (id, guard) := by
  rw [Agent.contains_iff]
  constructor
  · rintro ⟨slot, hslot, rfl⟩
    exact ⟨slot.2.2, _, hseats.taken slot hslot⟩
  · rintro ⟨n, guard, hholder⟩
    exact ⟨_, (hseats.held n id guard hholder).2, rfl⟩

theorem seats_claim {table : SessionTable ShellNumber}
    {holder holder' : Nat → Option (String × Guard)} (hseats : Seats table holder) {n : Nat}
    {id : String} (hfree : table.contains id = false)
    (hnone : holder n = none) (hown : holder' n = some (id, ⟨id, table.next⟩))
    (hothers : ∀ m, m ≠ n → holder' m = holder m) :
    Seats ⟨table.slots ++ [(id, table.next, n)], table.next + 1⟩ holder' where
  held m id' guard hm := by
    by_cases h : m = n
    · subst h
      rw [hown] at hm
      cases hm
      exact ⟨rfl, by simp⟩
    · rw [hothers m h] at hm
      obtain ⟨hid, hslot⟩ := hseats.held m id' guard hm
      exact ⟨hid, List.mem_append_left _ hslot⟩
  taken slot hslot := by
    rcases List.mem_append.mp hslot with hold | hnew
    · have htaken := hseats.taken slot hold
      have hne : slot.2.2 ≠ n := by
        intro heq
        rw [heq, hnone] at htaken
        cases htaken
      rw [hothers _ hne, htaken]
    · rw [List.mem_singleton] at hnew
      subst hnew
      exact hown
  distinct := by
    rw [List.map_append, List.nodup_append]
    refine ⟨hseats.distinct, by simp, ?_⟩
    intro other hother other' hother' heq
    simp only [List.map_cons, List.map_nil, List.mem_singleton] at hother'
    obtain ⟨slot, hslot, rfl⟩ := List.mem_map.mp hother
    have hcontains := (contains_iff table id).mpr ⟨slot, hslot, heq.trans hother'⟩
    rw [hfree] at hcontains
    cases hcontains

theorem seats_release {table : SessionTable ShellNumber}
    {holder holder' : Nat → Option (String × Guard)} (hseats : Seats table holder) {n : Nat}
    {id : String} {guard : Guard} (hheld : holder n = some (id, guard)) (hown : holder' n = none)
    (hothers : ∀ m, m ≠ n → holder' m = holder m) : Seats (table.release guard) holder' where
  held m id' guard' hm := by
    have hne : m ≠ n := by
      intro heq
      rw [heq, hown] at hm
      cases hm
    rw [hothers m hne] at hm
    obtain ⟨hid, hslot⟩ := hseats.held m id' guard' hm
    refine ⟨hid, List.mem_filter.mpr ⟨hslot, ?_⟩⟩
    obtain ⟨hguard, -⟩ := hseats.held n id guard hheld
    have hdiffer : id' ≠ guard.id := by
      intro heq
      rw [hguard] at heq
      exact hne (hseats.single (heq ▸ hm) hheld)
    simp [hdiffer]
  taken slot hslot := by
    obtain ⟨hold, hkept⟩ := List.mem_filter.mp hslot
    have htaken := hseats.taken slot hold
    have hne : slot.2.2 ≠ n := by
      intro heq
      rw [heq, hheld] at htaken
      cases htaken
      simp at hkept
    rw [hothers _ hne, htaken]
  distinct := (hseats.distinct).sublist (List.Sublist.map _ List.filter_sublist)

/-- A step of a bridge keeps the table in order. -/
theorem seats_step {n : Nat} {id : String} {table table' : SessionTable ShellNumber}
    {phase phase' : Phase} {unread unread' : List UInt8} {deeds : List Deed}
    {holder holder' : Nat → Option (String × Guard)}
    (hstep : BridgeStep n id table phase unread deeds table' phase' unread')
    (hseats : Seats table holder) (hbefore : holder n = phase.guard?.map (id, ·))
    (hafter : holder' n = phase'.guard?.map (id, ·))
    (hothers : ∀ m, m ≠ n → holder' m = holder m) : Seats table' holder' := by
  have hsame : phase'.guard? = phase.guard? → Seats table holder' := by
    intro hguard
    have heq : holder' = holder := by
      funext m
      by_cases h : m = n
      · rw [h, hafter, hbefore, hguard]
      · exact hothers m h
    exact heq ▸ hseats
  cases hstep with
  | claim _ free => exact seats_claim hseats free hbefore hafter hothers
  | release guard _ => exact seats_release hseats hbefore hafter hothers
  | stay | refuse | miss | dial | read | finish | last => exact hsame rfl

end ClusterAgent.Agent
