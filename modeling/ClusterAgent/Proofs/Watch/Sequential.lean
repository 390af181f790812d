/-
  ClusterAgent/Proofs/Watch/Sequential.lean
  =========================================
  **A gate that is called by one thread alone.**

  When calls to one gate come one after the other, what each of them must cause is
  plain: a valid request opens or closes the gate, any other leaves it as it is, and a
  change is queued if the last valid request before it asked for an open gate.  This
  is what the calls that race for a gate are measured by.
-/
import ClusterAgent.Proofs.Watch.Board
import ClusterAgent.Proofs.Watch.Forwarding
import Mathlib.Data.List.Induction

namespace ClusterAgent.Watch

variable {ι : Type}

namespace Call

/-- What a call asks its gate for, if it is a valid gate request. -/
def asks? : Call ι → Option Bool
  | .toggle _ params => asked? params
  | .notify .. => none

/-- What a call has to queue while the gate is open, or closed. -/
def due (isOpen : Bool) : Call ι → List Envelope
  | .toggle .. => []
  | .notify callbacks change object =>
    if isOpen then [report callbacks.label change object] else []

theorem due_length_le (isOpen : Bool) (c : Call ι) : (c.due isOpen).length ≤ 1 := by
  cases c with
  | toggle gate params => exact Nat.zero_le _
  | notify callbacks change object =>
    cases isOpen with
    | true => exact Nat.le_refl _
    | false => exact Nat.zero_le _

theorem eq_report_of_due {isOpen : Bool} {c : Call ι} {e : Envelope} (h : e ∈ c.due isOpen) :
    ∃ callbacks change object,
      c = .notify callbacks change object ∧ e = report callbacks.label change object := by
  cases c with
  | toggle gate params => cases h
  | notify callbacks change object =>
    cases isOpen with
    | true => exact ⟨callbacks, change, object, rfl, List.mem_singleton.mp h⟩
    | false => cases h

theorem due_of_closed (c : Call ι) : c.due false = [] := by
  cases c <;> rfl

/-- A valid gate request comes to the lock; -/
theorem refusal?_of_asked {g : ι} {params : Json} {isOpen : Bool}
    (h : asked? params = some isOpen) : (Call.toggle g params).refusal? = none := by
  have hrequested : Gate.requested params = .ok isOpen := by
    unfold asked? at h
    unfold Gate.requested
    generalize (SetParams.schema.decodeLenient params).action = action at h
    by_cases hopen : action = "open"
    · subst hopen
      simpa using h
    by_cases hclose : action = "close"
    · subst hclose
      simpa using h
    · simp at h
  simp [refusal?, hrequested]

/-- any other is refused, because of its parameters. -/
theorem refusal?_of_not_asked {g : ι} {params : Json} (h : asked? params = none) :
    ∃ text, (Call.toggle g params).refusal? = some (Response.error .paramsError text) := by
  obtain ⟨text, hrequested⟩ : ∃ text,
      Gate.requested params = .error (Response.error .paramsError text) := by
    unfold asked? at h
    unfold Gate.requested
    generalize (SetParams.schema.decodeLenient params).action = action at h
    by_cases hopen : action = "open"
    · simp [hopen] at h
    by_cases hclose : action = "close"
    · simp [hclose] at h
    by_cases hblank : action = ""
    · subst hblank
      exact ⟨_, rfl⟩
    · simp
  exact ⟨text, by simp [refusal?, hrequested]⟩

end Call

/-! ### Calls in a row -/

/-- Whether a gate is open after calls, given whether it was open before. -/
def isOpenAfter (isOpen : Bool) (calls : List (Caller ι)) : Bool :=
  calls.foldl (fun isOpen x => x.2.asks?.getD isOpen) isOpen

/-- What calls to a gate queue in a row, each with who queues it. -/
def forwards : Bool → List (Caller ι) → List (Caller ι × Envelope)
  | _, [] => []
  | isOpen, x :: rest => (x.2.due isOpen).map (x, ·) ++ forwards (x.2.asks?.getD isOpen) rest

variable {isOpen : Bool} {calls before after : List (Caller ι)} {x : Caller ι}

theorem isOpenAfter_append (isOpen : Bool) (before after : List (Caller ι)) :
    isOpenAfter isOpen (before ++ after) = isOpenAfter (isOpenAfter isOpen before) after :=
  List.foldl_append

theorem forwards_append (isOpen : Bool) (before after : List (Caller ι)) :
    forwards isOpen (before ++ after) =
      forwards isOpen before ++ forwards (isOpenAfter isOpen before) after := by
  induction before generalizing isOpen with
  | nil => rfl
  | cons x rest ih =>
    rw [List.cons_append, forwards, forwards, ih, List.append_assoc]
    rfl

theorem mem_of_forwards {e : Envelope} (h : (x, e) ∈ forwards isOpen calls) :
    x ∈ calls ∧ ∃ isOpen, e ∈ x.2.due isOpen := by
  induction calls generalizing isOpen with
  | nil => cases h
  | cons y rest ih =>
    rcases List.mem_append.mp h with hown | hlater
    · obtain ⟨e', he', heq⟩ := List.mem_map.mp hown
      obtain ⟨rfl, rfl⟩ := Prod.mk.inj heq
      exact ⟨List.mem_cons_self, isOpen, he'⟩
    · obtain ⟨hx, hdue⟩ := ih hlater
      exact ⟨List.mem_cons_of_mem _ hx, hdue⟩

/-- Calls queue in the order in which they come. -/
theorem forwards_sublist (isOpen : Bool) (calls : List (Caller ι)) :
    ((forwards isOpen calls).map Prod.fst).Sublist calls := by
  induction calls generalizing isOpen with
  | nil => exact List.Sublist.refl _
  | cons x rest ih =>
    have hlater := ih (x.2.asks?.getD isOpen)
    have hone := x.2.due_length_le isOpen
    rw [forwards, List.map_append, List.map_map]
    rcases hdue : x.2.due isOpen with _ | ⟨e, _ | ⟨more, others⟩⟩
    · exact hlater.cons x
    · exact hlater.cons_cons x
    · rw [hdue] at hone
      simp at hone

/-- What one of several different calls queues. -/
theorem forwards_split [DecidableEq ι] (hbefore : x ∉ before) (hafter : x ∉ after) :
    (forwards isOpen (before ++ x :: after)).filter (·.1 = x) =
      (x.2.due (isOpenAfter isOpen before)).map (x, ·) := by
  have hothers : ∀ isOpen (calls : List (Caller ι)), x ∉ calls →
      (forwards isOpen calls).filter (·.1 = x) = [] := by
    intro isOpen calls hx
    refine List.filter_eq_nil_iff.mpr ?_
    rintro ⟨y, e⟩ hy heq
    obtain rfl : y = x := by simpa using heq
    exact hx (mem_of_forwards hy).1
  have hown : ((x.2.due (isOpenAfter isOpen before)).map (x, ·)).filter (·.1 = x) =
      (x.2.due (isOpenAfter isOpen before)).map (x, ·) := by
    refine List.filter_eq_self.mpr ?_
    intro y hy
    obtain ⟨e, -, rfl⟩ := List.mem_map.mp hy
    simp
  rw [forwards_append, forwards, List.filter_append, List.filter_append, hothers _ _ hbefore,
    hothers _ _ hafter, hown, List.nil_append, List.append_nil]

/-- A closed gate that nobody asks to open stays closed, -/
theorem isOpenAfter_of_closed (h : ∀ x ∈ calls, x.2.asks? ≠ some true) :
    isOpenAfter false calls = false := by
  induction calls with
  | nil => rfl
  | cons x rest ih =>
    have hrest := ih fun y hy => h y (List.mem_cons_of_mem _ hy)
    have hx := h x List.mem_cons_self
    cases hasks : x.2.asks? with
    | none => simpa [isOpenAfter, hasks] using hrest
    | some wanted =>
      cases wanted with
      | true => exact absurd hasks hx
      | false => simpa [isOpenAfter, hasks] using hrest

/-- and nothing is queued through it. -/
theorem forwards_of_closed (h : ∀ x ∈ calls, x.2.asks? ≠ some true) : forwards false calls = [] := by
  induction calls with
  | nil => rfl
  | cons x rest ih =>
    have hrest := ih fun y hy => h y (List.mem_cons_of_mem _ hy)
    have hx := h x List.mem_cons_self
    rw [forwards, x.2.due_of_closed]
    cases hasks : x.2.asks? with
    | none => simpa [hasks] using hrest
    | some wanted =>
      cases wanted with
      | true => exact absurd hasks hx
      | false => simpa [hasks] using hrest

theorem isOpenAfter_eq_getLast? (isOpen : Bool) (calls : List (Caller ι)) :
    isOpenAfter isOpen calls = (calls.filterMap (·.2.asks?)).getLast?.getD isOpen := by
  induction calls using List.reverseRecOn with
  | nil => rfl
  | append_singleton calls x ih =>
    rw [isOpenAfter_append, ih, List.filterMap_append]
    cases hasks : x.2.asks? <;> simp [isOpenAfter, hasks]

/-! ### One gate of many -/

variable [DecidableEq ι]

/-- The calls to one gate. -/
def ofGate (g : ι) (calls : List (Caller ι)) : List (Caller ι) :=
  calls.filter (·.2.gate = g)

/-- What the last valid request among the calls asked this gate for; a gate is closed at first. -/
def lastAsked (g : ι) (calls : List (Caller ι)) : Bool :=
  ((ofGate g calls).filterMap (·.2.asks?)).getLast?.getD false

theorem lastAsked_eq (g : ι) (calls : List (Caller ι)) :
    lastAsked g calls = isOpenAfter false (ofGate g calls) :=
  (isOpenAfter_eq_getLast? false (ofGate g calls)).symm

theorem mem_ofGate {g : ι} {x : Caller ι} {calls : List (Caller ι)} :
    x ∈ ofGate g calls ↔ x ∈ calls ∧ x.2.gate = g := by
  simp [ofGate]

theorem ofGate_append (g : ι) (before after : List (Caller ι)) :
    ofGate g (before ++ after) = ofGate g before ++ ofGate g after :=
  List.filter_append _ _

theorem ofGate_cons_self (x : Caller ι) (calls : List (Caller ι)) :
    ofGate x.2.gate (x :: calls) = x :: ofGate x.2.gate calls := by
  simp [ofGate]

theorem ofGate_singleton_of_ne {g : ι} (h : x.2.gate ≠ g) : ofGate g [x] = [] := by
  simp [ofGate, h]

end ClusterAgent.Watch
