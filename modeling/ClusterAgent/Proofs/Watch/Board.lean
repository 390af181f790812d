/-
  ClusterAgent/Proofs/Watch/Board.lean
  ====================================
  **Gates under lock, and the calls that race for them.**

  Any number of gates share one queue, and threads call them at the same time: a gate
  request through any handle of a gate, a change through any callbacks made from one.
  A call takes the lock of its gate, does its work, gives the lock back and returns;
  between any two of these steps other threads may take theirs.  A request that is not
  valid is refused before it comes to the lock.

  The board also notes who took a lock, who did his work, and what was done to the
  queue by whom.  Nothing reads these notes but the theory.
-/
import Mathlib.Logic.Function.Basic
import ClusterAgent.Proofs.Outbound.History
import ClusterAgent.Watch.Gate

namespace ClusterAgent.Watch

/-! ### Calls -/

/-- The callbacks for one kind of object, made from a handle of a gate. -/
structure Callbacks (ι : Type) where
  gate : ι
  label : String
deriving DecidableEq, Repr

/-- What a thread may call. -/
inductive Call (ι : Type) where
  | toggle (gate : ι) (params : Json)
  /-- An event source reports a change of an object. -/
  | notify (callbacks : Callbacks ι) (change : Change) (object : Json)
deriving DecidableEq, Repr

/-- How far a call has come. -/
inductive Phase where
  | called
  /-- It has the lock, and its work is still to be done. -/
  | entered
  /-- Its work is done, and it still has the lock. -/
  | worked
  | left
  | returned (answer : Option Response)
deriving DecidableEq, Repr

def Phase.hasLock : Phase → Bool
  | .entered | .worked => true
  | _ => false

namespace Call

variable {ι : Type}

def gate : Call ι → ι
  | .toggle gate _ => gate
  | .notify callbacks _ _ => callbacks.gate

/-- The answer to a call that does not come to the lock. -/
def refusal? : Call ι → Option Response
  | .toggle _ params =>
    match Gate.requested params with
    | .ok _ => none
    | .error refusal => some refusal
  | .notify .. => none

/-- What a call returns when it has had the lock; callbacks return nothing. -/
def answer? : Call ι → Option Response
  | .toggle .. => some Gate.accepted
  | .notify .. => none

end Call

structure Thread (ι : Type) where
  call : Call ι
  phase : Phase
deriving DecidableEq, Repr

/-- A call with its number. -/
abbrev Caller (ι : Type) := Nat × Call ι

/-! ### The board -/

/-- Gates that share a queue, and the calls that were made to them. -/
structure Board (ι : Type) where
  gates : ι → Gate
  /-- The number of the call that has the lock of a gate. -/
  owner? : ι → Option Nat
  threads : List (Thread ι)
  outbound : Outbound
  /-- The calls that took a lock, in order. -/
  locked : List (Caller ι)
  /-- The calls that did their work, in order. -/
  worked : List (Caller ι)
  /-- What was done to the queue, in order, and by which call, if by one of these. -/
  uses : List (Option (Caller ι) × Outbound.Use)

/-- What can happen next. -/
inductive Board.Move (ι : Type) where
  | call (c : Call ι)
  /-- The thread of a call takes its next step. -/
  | turn (k : Nat)
  /-- Somebody else sends an envelope, or the writer takes one. -/
  | use (u : Outbound.Use)

namespace Board

variable {ι : Type}

def start (capacity : Nat) : Board ι :=
  ⟨fun _ => Gate.closed, fun _ => none, [], Outbound.ofCapacity capacity, [], [], []⟩

def goto (b : Board ι) (k : Nat) (phase : Phase) : Board ι :=
  { b with threads := b.threads.modify k fun t => { t with phase } }

theorem threads_goto {b : Board ι} {k : Nat} {t : Thread ι} (ht : b.threads[k]? = some t)
    (phase : Phase) (m : Nat) :
    (b.goto k phase).threads[m]? = if k = m then some ⟨t.call, phase⟩ else b.threads[m]? := by
  unfold goto
  rw [List.getElem?_modify]
  by_cases hm : k = m
  · subst hm
    simp [ht]
  · simp [hm]

section Steps

variable [DecidableEq ι]

/-- A call takes the lock of its gate, or waits as long as somebody has it. -/
def enter (b : Board ι) (k : Nat) (c : Call ι) : Board ι :=
  match b.owner? c.gate with
  | some _ => b
  | none =>
    { b with
      owner? := Function.update b.owner? c.gate (some k)
      locked := b.locked ++ [(k, c)] }.goto k .entered

/-- What a call does while it has the lock. -/
def work (b : Board ι) (k : Nat) (c : Call ι) : Board ι :=
  match c with
  | .toggle g params =>
    { b with gates := Function.update b.gates g ((b.gates g).setWatch params).1 }
  | .notify callbacks change object =>
    let gate := b.gates callbacks.gate
    let event : ChangeEvent := ⟨change, callbacks.label, object⟩
    { b with
      outbound := gate.forward b.outbound event
      uses := b.uses ++ (gate.pass event).map fun e => (some (k, c), .send e) }

def leave (b : Board ι) (c : Call ι) : Board ι :=
  { b with owner? := Function.update b.owner? c.gate none }

/-- The next step of a call. -/
def turn (b : Board ι) (k : Nat) : Board ι :=
  match b.threads[k]? with
  | none => b
  | some ⟨c, phase⟩ =>
    match phase with
    | .called =>
      match c.refusal? with
      | some refusal => b.goto k (.returned (some refusal))
      | none => b.enter k c
    | .entered => { b.work k c with worked := b.worked ++ [(k, c)] }.goto k .worked
    | .worked => (b.leave c).goto k .left
    | .left => b.goto k (.returned c.answer?)
    | .returned _ => b

def step (b : Board ι) : Move ι → Board ι
  | .call c => { b with threads := b.threads ++ [⟨c, .called⟩] }
  | .turn k => b.turn k
  | .use u => { b with outbound := b.outbound.use u, uses := b.uses ++ [(none, u)] }

def run (b : Board ι) (moves : List (Move ι)) : Board ι :=
  moves.foldl step b

/-- What holds at first and is kept by every move holds after every run. -/
theorem run_induction {P : Board ι → Prop} {b : Board ι} (start : P b)
    (keep : ∀ b m, P b → P (b.step m)) (moves : List (Move ι)) : P (b.run moves) := by
  induction moves generalizing b with
  | nil => exact start
  | cons m rest ih => exact ih (keep b m start)

/-- All that the next step of a call can be. -/
inductive Turned (b : Board ι) (k : Nat) : Board ι → Prop where
  | stay : Turned b k b
  | refuse (c : Call ι) (refusal : Response) (was : b.threads[k]? = some ⟨c, .called⟩)
      (refused : c.refusal? = some refusal) : Turned b k (b.goto k (.returned (some refusal)))
  | enter (c : Call ι) (was : b.threads[k]? = some ⟨c, .called⟩) (valid : c.refusal? = none)
      (free : b.owner? c.gate = none) :
      Turned b k ({ b with
        owner? := Function.update b.owner? c.gate (some k)
        locked := b.locked ++ [(k, c)] }.goto k .entered)
  | work (c : Call ι) (was : b.threads[k]? = some ⟨c, .entered⟩) :
      Turned b k ({ b.work k c with worked := b.worked ++ [(k, c)] }.goto k .worked)
  | leave (c : Call ι) (was : b.threads[k]? = some ⟨c, .worked⟩) :
      Turned b k ((b.leave c).goto k .left)
  | answer (c : Call ι) (was : b.threads[k]? = some ⟨c, .left⟩) :
      Turned b k (b.goto k (.returned c.answer?))

theorem turn_cases (b : Board ι) (k : Nat) : Turned b k (b.turn k) := by
  unfold turn
  cases hthread : b.threads[k]? with
  | none => exact .stay
  | some t =>
    obtain ⟨c, phase⟩ := t
    cases phase with
    | called =>
      cases hrefusal : c.refusal? with
      | some refusal =>
        simp only [hrefusal]
        exact .refuse c refusal hthread hrefusal
      | none =>
        simp only [hrefusal, enter]
        cases hfree : b.owner? c.gate with
        | some other => exact .stay
        | none => exact .enter c hthread hrefusal hfree
    | entered => exact .work c hthread
    | worked => exact .leave c hthread
    | left => exact .answer c hthread
    | returned answer => exact .stay

end Steps

/-! ### Who has the lock -/

/-- A lock is with the call that has entered and not left. -/
def Owned (b : Board ι) : Prop :=
  ∀ g k, b.owner? g = some k ↔
    ∃ t, b.threads[k]? = some t ∧ t.call.gate = g ∧ t.phase.hasLock = true

/-- Two calls that have the lock of one gate are one. -/
theorem Owned.exclusive {b : Board ι} (h : Owned b) {k m : Nat} {t u : Thread ι}
    (ht : b.threads[k]? = some t) (hu : b.threads[m]? = some u) (hlock : t.phase.hasLock = true)
    (hlock' : u.phase.hasLock = true) (hgate : t.call.gate = u.call.gate) : k = m := by
  have hk := (h u.call.gate k).mpr ⟨t, ht, hgate, hlock⟩
  have hm := (h u.call.gate m).mpr ⟨u, hu, rfl, hlock'⟩
  exact Option.some.inj (hk.symm.trans hm)

variable {b b' : Board ι} {k : Nat} {c : Call ι} {p q : Phase}

/-- A call goes on, and no lock changes hands. -/
theorem Owned.goto (h : Owned b) (was : b.threads[k]? = some ⟨c, p⟩)
    (hthreads : ∀ m : Nat, b'.threads[m]? = if k = m then some ⟨c, q⟩ else b.threads[m]?)
    (howner : b'.owner? = b.owner?) (hsame : q.hasLock = p.hasLock) : Owned b' := by
  intro g m
  rw [howner, h g m, hthreads]
  by_cases hm : k = m
  · subst hm
    simp [was, hsame]
  · simp [hm]

section Hands

variable [DecidableEq ι]

theorem Owned.enter (h : Owned b) (was : b.threads[k]? = some ⟨c, .called⟩)
    (free : b.owner? c.gate = none)
    (hthreads : ∀ m : Nat, b'.threads[m]? = if k = m then some ⟨c, .entered⟩ else b.threads[m]?)
    (howner : b'.owner? = Function.update b.owner? c.gate (some k)) : Owned b' := by
  intro g m
  rw [howner, hthreads]
  by_cases hg : g = c.gate
  · subst hg
    rw [Function.update_self]
    by_cases hm : k = m
    · subst hm
      simp [Phase.hasLock]
    · have hnone := h c.gate m
      rw [free] at hnone
      simpa [hm] using hnone
  · rw [Function.update_of_ne hg, h g m]
    by_cases hm : k = m
    · subst hm
      simp [was, Phase.hasLock, Ne.symm hg]
    · simp [hm]

theorem Owned.leave (h : Owned b) (was : b.threads[k]? = some ⟨c, .worked⟩)
    (hthreads : ∀ m : Nat, b'.threads[m]? = if k = m then some ⟨c, .left⟩ else b.threads[m]?)
    (howner : b'.owner? = Function.update b.owner? c.gate none) : Owned b' := by
  intro g m
  rw [howner, hthreads]
  by_cases hg : g = c.gate
  · subst hg
    rw [Function.update_self]
    by_cases hm : k = m
    · subst hm
      simp [Phase.hasLock]
    · -- The call itself had the lock, so nobody else had it.
      have hothers : ∀ t, b.threads[m]? = some t → t.call.gate = c.gate →
          t.phase.hasLock = false := by
        intro t ht hgate
        rw [Bool.eq_false_iff]
        intro hlock
        exact hm (h.exclusive was ht rfl hlock hgate.symm)
      simpa [hm] using hothers
  · rw [Function.update_of_ne hg, h g m]
    by_cases hm : k = m
    · subst hm
      simp [was, Phase.hasLock, Ne.symm hg]
    · simp [hm]

end Hands

/-! ### Every call in its turn -/

/-- Every call takes the lock once, unless it is refused, and answers as it should. -/
structure Orderly (b : Board ι) : Prop where
  owned : Owned b
  answer : ∀ (k : Nat) (c : Call ι) (answer : Option Response),
    b.threads[k]? = some ⟨c, .returned answer⟩ → answer = (c.refusal? <|> c.answer?)
  refused : ∀ (k : Nat) (c : Call ι) (phase : Phase), b.threads[k]? = some ⟨c, phase⟩ →
    c.refusal? ≠ none → phase = .called ∨ ∃ answer, phase = .returned answer
  locked : ∀ (k : Nat) (c : Call ι), (k, c) ∈ b.locked ↔
    ∃ phase, b.threads[k]? = some ⟨c, phase⟩ ∧ phase ≠ .called ∧ c.refusal? = none
  distinct : (b.locked.map Prod.fst).Nodup

theorem orderly_start (capacity : Nat) : Orderly (start capacity : Board ι) where
  owned := by
    intro g k
    simp [start]
  answer k c answer hk := by cases hk
  refused k c phase hk := by cases hk
  locked k c := by simp [start]
  distinct := List.nodup_nil

/-- A call that was refused has not come to the lock. -/
theorem Orderly.valid (h : Orderly b) (was : b.threads[k]? = some ⟨c, p⟩)
    (hp : p = .entered ∨ p = .worked ∨ p = .left) : c.refusal? = none := by
  by_contra hrefused
  rcases h.refused k c p was hrefused with rfl | ⟨answer, rfl⟩
  · simp at hp
  · simp at hp

/-- A call goes on without taking a lock. -/
theorem Orderly.goto (h : Orderly b) (was : b.threads[k]? = some ⟨c, p⟩)
    (hthreads : ∀ m : Nat, b'.threads[m]? = if k = m then some ⟨c, q⟩ else b.threads[m]?)
    (hlocked : b'.locked = b.locked) (howned : Owned b')
    (hanswer : ∀ answer, q = .returned answer → answer = (c.refusal? <|> c.answer?))
    (hrefused : c.refusal? ≠ none → q = .called ∨ ∃ answer, q = .returned answer)
    (hpassed : q ≠ .called ∧ c.refusal? = none ↔ p ≠ .called ∧ c.refusal? = none) :
    Orderly b' where
  owned := howned
  answer m d answer hm := by
    rw [hthreads] at hm
    split at hm
    · cases hm
      exact hanswer answer rfl
    · exact h.answer m d answer hm
  refused m d phase hm := by
    rw [hthreads] at hm
    split at hm
    · cases hm
      exact hrefused
    · exact h.refused m d phase hm
  locked m d := by
    rw [hlocked, h.locked, hthreads]
    by_cases hm : k = m
    · subst hm
      rw [was, if_pos rfl]
      constructor
      · rintro ⟨phase, heq, hphase⟩
        cases heq
        exact ⟨q, rfl, hpassed.mpr hphase⟩
      · rintro ⟨phase, heq, hphase⟩
        cases heq
        exact ⟨p, rfl, hpassed.mp hphase⟩
    · rw [if_neg hm]
  distinct := hlocked ▸ h.distinct

/-- A call takes the lock of its gate. -/
theorem Orderly.enter (h : Orderly b) (was : b.threads[k]? = some ⟨c, .called⟩)
    (valid : c.refusal? = none)
    (hthreads : ∀ m : Nat, b'.threads[m]? = if k = m then some ⟨c, .entered⟩ else b.threads[m]?)
    (hlocked : b'.locked = b.locked ++ [(k, c)]) (howned : Owned b') : Orderly b' where
  owned := howned
  answer m d answer hm := by
    rw [hthreads] at hm
    split at hm
    · cases hm
    · exact h.answer m d answer hm
  refused m d phase hm := by
    rw [hthreads] at hm
    split at hm
    · cases hm
      exact fun hrefused => absurd valid hrefused
    · exact h.refused m d phase hm
  locked m d := by
    rw [hlocked, List.mem_append, List.mem_singleton, h.locked, hthreads]
    by_cases hm : k = m
    · subst hm
      rw [was, if_pos rfl]
      constructor
      · rintro (⟨phase, heq, hphase, -⟩ | heq)
        · cases heq
          exact absurd rfl hphase
        · cases heq
          exact ⟨.entered, rfl, by simp, valid⟩
      · rintro ⟨phase, heq, -⟩
        cases heq
        exact .inr rfl
    · simp [hm, Ne.symm hm]
  distinct := by
    rw [hlocked, List.map_append, List.nodup_append]
    refine ⟨h.distinct, by simp, ?_⟩
    rintro m hm _ hk rfl
    obtain rfl : m = k := by simpa using hk
    obtain ⟨⟨m, d⟩, hd, rfl⟩ := List.mem_map.mp hm
    obtain ⟨phase, heq, hphase, -⟩ := (h.locked m d).mp hd
    cases was.symm.trans heq
    exact hphase rfl

variable [DecidableEq ι]

theorem work_keeps (b : Board ι) (k : Nat) (c : Call ι) :
    (b.work k c).threads = b.threads ∧ (b.work k c).owner? = b.owner? ∧
      (b.work k c).locked = b.locked := by
  cases c <;> exact ⟨rfl, rfl, rfl⟩

theorem threads_call (b : Board ι) (c : Call ι) (m : Nat) :
    (b.step (.call c)).threads[m]? =
      if b.threads.length = m then some ⟨c, .called⟩ else b.threads[m]? := by
  show (b.threads ++ [⟨c, .called⟩])[m]? = _
  rw [List.getElem?_append]
  by_cases hm : m < b.threads.length
  · simp [hm, Nat.ne_of_gt hm]
  · by_cases hlast : b.threads.length = m
    · simp [hlast]
    · have hfar : m - b.threads.length ≠ 0 := by omega
      rw [if_neg hm, if_neg hlast, List.getElem?_eq_none (Nat.not_lt.mp hm)]
      simp
      omega

theorem Orderly.call (h : Orderly b) (c : Call ι) : Orderly (b.step (.call c)) where
  owned := by
    intro g m
    rw [threads_call]
    show b.owner? g = some m ↔ _
    rw [h.owned g m]
    by_cases hm : b.threads.length = m
    · subst hm
      simp [Phase.hasLock]
    · simp [hm]
  answer m d answer hm := by
    rw [threads_call] at hm
    split at hm
    · cases hm
    · exact h.answer m d answer hm
  refused m d phase hm := by
    rw [threads_call] at hm
    split at hm
    · cases hm
      exact fun _ => .inl rfl
    · exact h.refused m d phase hm
  locked m d := by
    show (m, d) ∈ b.locked ↔ _
    rw [h.locked, threads_call]
    by_cases hm : b.threads.length = m
    · subst hm
      simp
    · simp [hm]
  distinct := h.distinct

theorem Orderly.turned (h : Orderly b) (hturned : Turned b k b') : Orderly b' := by
  cases hturned with
  | stay => exact h
  | refuse c refusal was refused =>
    have hthreads := threads_goto was (.returned (some refusal))
    refine h.goto was hthreads rfl (h.owned.goto was hthreads rfl rfl) ?_ ?_ ?_
    · intro answer hanswer
      cases hanswer
      simp [refused]
    · exact fun _ => .inr ⟨_, rfl⟩
    · simp [refused]
  | enter c was valid free =>
    have hthreads := threads_goto (b := { b with
      owner? := Function.update b.owner? c.gate (some k)
      locked := b.locked ++ [(k, c)] }) was .entered
    exact h.enter was valid hthreads rfl (h.owned.enter was free hthreads rfl)
  | work c was =>
    obtain ⟨hsame, howner, hlocked⟩ := work_keeps b k c
    have hthreads : ∀ m : Nat,
        ({ b.work k c with worked := b.worked ++ [(k, c)] }.goto k .worked).threads[m]? =
          if k = m then some ⟨c, .worked⟩ else b.threads[m]? := by
      intro m
      rw [threads_goto (t := ⟨c, .entered⟩) (hsame ▸ was), hsame]
    have hvalid := h.valid was (by simp)
    exact h.goto was hthreads hlocked (h.owned.goto was hthreads howner rfl) nofun
      (fun hrefused => absurd hvalid hrefused) (by simp)
  | leave c was =>
    have hthreads := threads_goto (b := b.leave c) was .left
    have hvalid := h.valid was (by simp)
    exact h.goto was hthreads rfl (h.owned.leave was hthreads rfl) nofun
      (fun hrefused => absurd hvalid hrefused) (by simp)
  | answer c was =>
    have hthreads := threads_goto was (.returned c.answer?)
    have hvalid := h.valid was (by simp)
    refine h.goto was hthreads rfl (h.owned.goto was hthreads rfl rfl) ?_ ?_ (by simp)
    · intro answer hanswer
      cases hanswer
      simp [hvalid]
    · exact fun hrefused => absurd hvalid hrefused

theorem Orderly.step (h : Orderly b) (m : Move ι) : Orderly (b.step m) := by
  cases m with
  | call c => exact h.call c
  | turn k => exact h.turned (turn_cases b k)
  | use u => exact ⟨h.owned, h.answer, h.refused, h.locked, h.distinct⟩

end Board

end ClusterAgent.Watch
