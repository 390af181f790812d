/-
  ClusterAgent/Proofs/Watch/Switch.lean
  =====================================
  **The gate as a switch, for any number of threads.**

  The calls to a gate work one after the other, in the order in which they take its
  lock.  So whatever the threads do, a gate is as its calls would have left it alone,
  and what they queued is what they would have queued alone (`Linear`).
  `gate_is_a_switch` reads this off: which changes are queued, what a request does to
  which gate, and that nothing comes after a close has returned.
-/
import ClusterAgent.Proofs.Watch.Sequential

namespace ClusterAgent.Watch

variable {ι : Type}

namespace Board

/-! ### Notes -/

/-- What the calls have queued, in order, each envelope with who queued it. -/
def sends (b : Board ι) : List (Caller ι × Envelope) :=
  b.uses.filterMap fun
    | (some x, .send e) => some (x, e)
    | _ => none

theorem sends_sublist (b : Board ι) :
    (b.sends.map Prod.snd).Sublist (Outbound.sent (b.uses.map Prod.snd)) := by
  unfold sends Outbound.sent
  induction b.uses with
  | nil => exact List.Sublist.refl _
  | cons use rest ih =>
    rcases use with ⟨_ | x, e | _⟩
    · exact ih.cons e
    · exact ih
    · exact ih.cons_cons e
    · exact ih

/-! ### Who is about to work -/

/-- The call that has the lock of a gate and has not done its work. -/
def pending (b : Board ι) (g : ι) : List (Caller ι) :=
  ((b.owner? g).bind fun k =>
    (b.threads[k]?.filter (·.phase = .entered)).map fun t => (k, t.call)).toList

variable {b b' : Board ι} {k : Nat} {c : Call ι} {p q : Phase}

theorem pending_of_owner {g : ι} {t : Thread ι} (howner : b.owner? g = some k)
    (ht : b.threads[k]? = some t) :
    b.pending g = if t.phase = .entered then [(k, t.call)] else [] := by
  by_cases hentered : t.phase = .entered
  · simp [pending, howner, ht, hentered]
  · simp [pending, howner, ht, hentered]

theorem pending_of_free {g : ι} (free : b.owner? g = none) : b.pending g = [] := by
  simp [pending, free]

theorem mem_pending {g : ι} {x : Caller ι} (h : x ∈ b.pending g) :
    b.threads[x.1]? = some ⟨x.2, .entered⟩ := by
  simp only [pending, Option.mem_toList, Option.bind_eq_some_iff, Option.map_eq_some_iff,
    Option.filter_eq_some_iff, decide_eq_true_eq] at h
  obtain ⟨k, -, ⟨c, phase⟩, ⟨ht, rfl⟩, rfl⟩ := h
  exact ht

/-- A call that goes on changes nothing for whoever is about to work in another gate; it changes
    nothing at all if it was not about to work and is not now. -/
theorem pending_goto {g : ι} (h : Owned b) (was : b.threads[k]? = some ⟨c, p⟩)
    (hthreads : ∀ m : Nat, b'.threads[m]? = if k = m then some ⟨c, q⟩ else b.threads[m]?)
    (howner : b'.owner? g = b.owner? g)
    (hother : c.gate ≠ g ∨ p ≠ .entered ∧ q ≠ .entered) : b'.pending g = b.pending g := by
  cases hfree : b.owner? g with
  | none => rw [pending_of_free hfree, pending_of_free (howner.trans hfree)]
  | some m =>
    simp only [pending, howner, hfree, Option.bind_some, hthreads]
    by_cases hm : k = m
    · subst hm
      rcases hother with hgate | ⟨hp, hq⟩
      · obtain ⟨t, ht, hsame, -⟩ := (h g k).mp hfree
        cases was.symm.trans ht
        exact absurd hsame hgate
      · simp [was, Option.filter, hp, hq]
    · simp [hm]

/-! ### The order of the calls -/

variable [DecidableEq ι]

/-- What the calls to one gate have queued. -/
def sendsOf (b : Board ι) (g : ι) : List (Caller ι × Envelope) :=
  b.sends.filter (·.1.2.gate = g)

/-- What one call has queued. -/
def sentBy (b : Board ι) (x : Caller ι) : List Envelope :=
  (b.sends.filter (·.1 = x)).map Prod.snd

/-- All that the calls have done is what they would have done one after the other, in the order in
    which they took the lock. -/
structure Linear (capacity : Nat) (b : Board ι) : Prop where
  orderly : Orderly b
  line : ∀ g, ofGate g b.locked = ofGate g b.worked ++ b.pending g
  gate : ∀ g, (b.gates g).isOpen = isOpenAfter false (ofGate g b.worked)
  sends : ∀ g, b.sendsOf g = forwards false (ofGate g b.worked)
  queue : b.outbound = (Outbound.ofCapacity capacity).useAll (b.uses.map Prod.snd)

/-! ### Work -/

theorem gates_work (b : Board ι) (k : Nat) (c : Call ι) (g : ι) :
    ((b.work k c).gates g).isOpen =
      if c.gate = g then c.asks?.getD (b.gates g).isOpen else (b.gates g).isOpen := by
  cases c with
  | toggle gate params =>
    by_cases hg : gate = g
    · subst hg
      simp [work, Call.gate, Call.asks?, setWatch_isOpen]
    · simp [work, Call.gate, hg, Function.update_of_ne (Ne.symm hg)]
  | notify callbacks change object => simp [work, Call.asks?]

theorem sends_work (b : Board ι) (k : Nat) (c : Call ι) :
    (b.work k c).sends = b.sends ++ (c.due (b.gates c.gate).isOpen).map ((k, c), ·) := by
  cases c with
  | toggle gate params => simp [sends, work, Call.due]
  | notify callbacks change object =>
    by_cases hopen : (b.gates callbacks.gate).isOpen
    · simp [sends, work, Call.due, Call.gate, Gate.pass, hopen, report_eq_watch]
    · simp [sends, work, Call.due, Call.gate, Gate.pass, hopen]

theorem queue_work {o : Outbound} (h : b.outbound = o.useAll (b.uses.map Prod.snd)) (k : Nat)
    (c : Call ι) : (b.work k c).outbound = o.useAll ((b.work k c).uses.map Prod.snd) := by
  cases c with
  | toggle gate params => exact h
  | notify callbacks change object =>
    by_cases hopen : (b.gates callbacks.gate).isOpen
    · simp [work, Gate.forward, Gate.pass, hopen, h, Outbound.useAll, Outbound.sendAll,
        Outbound.use]
    · simp [work, Gate.forward, Gate.pass, hopen, h, Outbound.sendAll]

/-! ### What every move keeps -/

theorem linear_start (capacity : Nat) : Linear capacity (start capacity : Board ι) where
  orderly := orderly_start capacity
  line _ := rfl
  gate _ := rfl
  sends _ := rfl
  queue := rfl

variable {capacity : Nat}

/-- A call that comes last to a gate and is alone there does what it has to. -/
theorem Linear.work (h : Linear capacity b) (was : b.threads[k]? = some ⟨c, .entered⟩)
    (hafter : Orderly ({ b.work k c with worked := b.worked ++ [(k, c)] }.goto k .worked)) :
    Linear capacity ({ b.work k c with worked := b.worked ++ [(k, c)] }.goto k .worked) := by
  obtain ⟨hsame, howner, hlocked⟩ := work_keeps b k c
  have hthreads : ∀ m : Nat,
      ({ b.work k c with worked := b.worked ++ [(k, c)] }.goto k .worked).threads[m]? =
        if k = m then some ⟨c, .worked⟩ else b.threads[m]? := by
    intro m
    rw [threads_goto (t := ⟨c, .entered⟩) (hsame ▸ was), hsame]
  have hmine : b.owner? c.gate = some k :=
    (h.orderly.owned c.gate k).mpr ⟨_, was, rfl, rfl⟩
  constructor
  case orderly => exact hafter
  case line =>
    intro g
    show ofGate g (b.work k c).locked = ofGate g (b.worked ++ [(k, c)]) ++ _
    rw [hlocked, h.line g, ofGate_append, List.append_assoc]
    congr 1
    by_cases hg : c.gate = g
    · subst hg
      have howner' : ({ b.work k c with worked := b.worked ++ [(k, c)] }.goto k .worked).owner?
          c.gate = some k := by rw [← hmine, ← howner]; rfl
      rw [pending_of_owner hmine was, if_pos rfl,
        pending_of_owner howner' ((hthreads k).trans (if_pos rfl))]
      simp [ofGate]
    · rw [ofGate_singleton_of_ne hg,
        pending_goto h.orderly.owned was hthreads (congrFun howner g) (.inl hg)]
      rfl
  case gate =>
    intro g
    show ((b.work k c).gates g).isOpen = isOpenAfter false (ofGate g (b.worked ++ [(k, c)]))
    rw [gates_work, ofGate_append, isOpenAfter_append, ← h.gate g]
    by_cases hg : c.gate = g
    · simp [ofGate, hg, isOpenAfter]
    · rw [if_neg hg, ofGate_singleton_of_ne hg]
      rfl
  case sends =>
    intro g
    show (b.work k c).sendsOf g = forwards false (ofGate g (b.worked ++ [(k, c)]))
    rw [ofGate_append, forwards_append, ← h.gate g, ← h.sends g]
    simp only [sendsOf, sends_work, List.filter_append]
    congr 1
    by_cases hg : c.gate = g
    · subst hg
      simp [ofGate, forwards]
    · simp [ofGate, forwards, hg]
  case queue => exact queue_work h.queue k c

theorem Linear.enter (h : Linear capacity b) (was : b.threads[k]? = some ⟨c, .called⟩)
    (free : b.owner? c.gate = none)
    (hafter : Orderly ({ b with
      owner? := Function.update b.owner? c.gate (some k)
      locked := b.locked ++ [(k, c)] }.goto k .entered)) :
    Linear capacity ({ b with
      owner? := Function.update b.owner? c.gate (some k)
      locked := b.locked ++ [(k, c)] }.goto k .entered) where
  orderly := hafter
  line g := by
    have hthreads := threads_goto (b := { b with
      owner? := Function.update b.owner? c.gate (some k)
      locked := b.locked ++ [(k, c)] }) was .entered
    show ofGate g (b.locked ++ [(k, c)]) = ofGate g b.worked ++ _
    rw [ofGate_append, h.line g, List.append_assoc]
    congr 1
    by_cases hg : c.gate = g
    · subst hg
      rw [pending_of_free free,
        pending_of_owner (Function.update_self _ _ _) ((hthreads k).trans (if_pos rfl))]
      simp [ofGate]
    · rw [ofGate_singleton_of_ne hg, List.append_nil]
      exact (pending_goto h.orderly.owned was hthreads
        (Function.update_of_ne (Ne.symm hg) _ _) (.inl hg)).symm
  gate := h.gate
  sends := h.sends
  queue := h.queue

theorem Linear.leave (h : Linear capacity b) (was : b.threads[k]? = some ⟨c, .worked⟩)
    (hafter : Orderly ((b.leave c).goto k .left)) :
    Linear capacity ((b.leave c).goto k .left) where
  orderly := hafter
  line g := by
    have hthreads := threads_goto (b := b.leave c) was .left
    show ofGate g b.locked = ofGate g b.worked ++ _
    rw [h.line g]
    congr 1
    by_cases hg : c.gate = g
    · subst hg
      have hmine := (h.orderly.owned c.gate k).mpr ⟨_, was, rfl, rfl⟩
      rw [pending_of_owner hmine was, pending_of_free (Function.update_self _ _ _)]
      rfl
    · exact (pending_goto h.orderly.owned was hthreads
        (Function.update_of_ne (Ne.symm hg) _ _) (.inl hg)).symm
  gate := h.gate
  sends := h.sends
  queue := h.queue

/-- A call that comes or goes without a lock changes nothing. -/
theorem Linear.goto (h : Linear capacity b) (was : b.threads[k]? = some ⟨c, p⟩)
    (hp : p ≠ .entered) (hq : q ≠ .entered) (hafter : Orderly (b.goto k q)) :
    Linear capacity (b.goto k q) where
  orderly := hafter
  line g := by
    show ofGate g b.locked = ofGate g b.worked ++ _
    rw [h.line g]
    congr 1
    exact (pending_goto h.orderly.owned was (threads_goto was q) rfl (.inr ⟨hp, hq⟩)).symm
  gate := h.gate
  sends := h.sends
  queue := h.queue

theorem Linear.turned (h : Linear capacity b) (hturned : Turned b k b') : Linear capacity b' := by
  have hafter := h.orderly.turned hturned
  cases hturned with
  | stay => exact h
  | refuse c refusal was refused => exact h.goto was nofun nofun hafter
  | enter c was valid free => exact h.enter was free hafter
  | work c was => exact h.work was hafter
  | leave c was => exact h.leave was hafter
  | answer c was => exact h.goto was nofun nofun hafter

theorem Linear.call (h : Linear capacity b) (c : Call ι) : Linear capacity (b.step (.call c)) where
  orderly := h.orderly.call c
  line g := by
    show ofGate g b.locked = ofGate g b.worked ++ _
    rw [h.line g]
    congr 1
    cases hfree : b.owner? g with
    | none =>
      have hfree' : (b.step (.call c)).owner? g = none := hfree
      rw [pending_of_free hfree, pending_of_free hfree']
    | some m =>
      obtain ⟨t, ht, -⟩ := (h.orderly.owned g m).mp hfree
      have hm : b.threads.length ≠ m := by
        rintro rfl
        simp at ht
      have ht' : (b.step (.call c)).threads[m]? = some t := by
        rw [threads_call, if_neg hm, ht]
      have hfree' : (b.step (.call c)).owner? g = some m := hfree
      rw [pending_of_owner hfree ht, pending_of_owner hfree' ht']
  gate := h.gate
  sends := h.sends
  queue := h.queue

theorem Linear.use (h : Linear capacity b) (u : Outbound.Use) : Linear capacity (b.step (.use u)) where
  orderly := h.orderly.step (.use u)
  line := h.line
  gate := h.gate
  sends g := by
    show (b.step (.use u)).sendsOf g = forwards false (ofGate g b.worked)
    rw [← h.sends g]
    simp [sendsOf, Board.sends, Board.step]
  queue := by
    simp [Board.step, h.queue, Outbound.useAll]

theorem Linear.step (h : Linear capacity b) (m : Move ι) : Linear capacity (b.step m) := by
  cases m with
  | call c => exact h.call c
  | turn k => exact h.turned (turn_cases b k)
  | use u => exact h.use u

theorem linear_run (capacity : Nat) (moves : List (Move ι)) :
    Linear capacity ((start capacity).run moves) :=
  run_induction (linear_start capacity) (fun _ m h => h.step m) moves

/-! ### Reading the notes -/

/-- Whoever had the lock has done his work, or is about to do it. -/
theorem Linear.worked_iff (h : Linear capacity b) {x : Caller ι} (hx : x ∈ b.locked) :
    x ∈ b.worked ↔ b.threads[x.1]? ≠ some ⟨x.2, .entered⟩ := by
  have hline := h.line x.2.gate
  constructor
  · intro hworked hentered
    have howner := (h.orderly.owned x.2.gate x.1).mpr ⟨_, hentered, rfl, rfl⟩
    rw [pending_of_owner howner hentered, if_pos rfl] at hline
    have hnodup : (ofGate x.2.gate b.locked).Nodup := h.orderly.distinct.of_map.filter _
    rw [hline, List.nodup_append] at hnodup
    exact hnodup.2.2 x (mem_ofGate.mpr ⟨hworked, rfl⟩) x (by simp) rfl
  · intro hpast
    have hmem : x ∈ ofGate x.2.gate b.locked := mem_ofGate.mpr ⟨hx, rfl⟩
    rw [hline, List.mem_append] at hmem
    rcases hmem with hworked | hpending
    · exact (mem_ofGate.mp hworked).1
    · exact absurd (mem_pending hpending) hpast

theorem Linear.locked_of_worked (h : Linear capacity b) {x : Caller ι} (hx : x ∈ b.worked) :
    x ∈ b.locked := by
  have hmem : x ∈ ofGate x.2.gate b.locked := by
    rw [h.line]
    exact List.mem_append_left _ (mem_ofGate.mpr ⟨hx, rfl⟩)
  exact (mem_ofGate.mp hmem).1

/-- Before and after a call the calls to its gate have worked in the order of the lock. -/
theorem Linear.split (h : Linear capacity b) {before after : List (Caller ι)} {x : Caller ι}
    (hlocked : b.locked = before ++ x :: after) (hx : x ∈ b.worked) :
    ∃ later, ofGate x.2.gate b.worked = ofGate x.2.gate before ++ x :: later ∧
      x ∉ ofGate x.2.gate before ∧ x ∉ later ∧ ∀ y ∈ later, y ∈ after := by
  obtain ⟨first, later, hworked⟩ :=
    List.append_of_mem ((mem_ofGate (g := x.2.gate)).mpr ⟨hx, rfl⟩)
  have hline := h.line x.2.gate
  have hnodup : b.locked.Nodup := h.orderly.distinct.of_map
  rw [hlocked] at hline hnodup
  rw [ofGate_append, ofGate_cons_self, hworked, List.append_assoc, List.cons_append] at hline
  obtain ⟨-, hafter, hapart⟩ := List.nodup_append.mp hnodup
  have hbefore : x ∉ ofGate x.2.gate before := by
    intro hmem
    exact hapart x (mem_ofGate.mp hmem).1 x List.mem_cons_self rfl
  have hnot : x ∉ ofGate x.2.gate after := by
    intro hmem
    exact (List.nodup_cons.mp hafter).1 (mem_ofGate.mp hmem).1
  obtain ⟨hfirst, -, hrest⟩ := (List.append_cons_inj_of_notMem hbefore hnot).mp hline
  refine ⟨later, by rw [hworked, hfirst], hbefore, ?_, ?_⟩
  · intro hmem
    exact hnot (hrest ▸ List.mem_append_left _ hmem)
  · intro y hy
    have hmem : y ∈ ofGate x.2.gate after := hrest ▸ List.mem_append_left _ hy
    exact (mem_ofGate.mp hmem).1

/-- What a call has queued is to be found among what was queued through its gate. -/
theorem sentBy_eq (b : Board ι) (x : Caller ι) :
    b.sentBy x = ((b.sendsOf x.2.gate).filter (·.1 = x)).map Prod.snd := by
  simp only [sentBy, sendsOf, List.filter_filter]
  congr 1
  apply List.filter_congr
  intro y _
  by_cases hy : y.1 = x
  · simp [hy]
  · simp [hy]

/-- A call that has done its work has queued what was due. -/
theorem Linear.sentBy (h : Linear capacity b) {before after : List (Caller ι)} {x : Caller ι}
    (hlocked : b.locked = before ++ x :: after) (hx : x ∈ b.worked) :
    b.sentBy x = x.2.due (lastAsked x.2.gate before) := by
  obtain ⟨later, hworked, hbefore, hlater, -⟩ := h.split hlocked hx
  rw [sentBy_eq, h.sends, hworked, forwards_split hbefore hlater, lastAsked_eq, List.map_map]
  simp

theorem Linear.mem_sends (h : Linear capacity b) {x : Caller ι} {e : Envelope}
    (he : (x, e) ∈ b.sends) : x ∈ b.worked ∧ ∃ isOpen, e ∈ x.2.due isOpen := by
  have hgate : (x, e) ∈ b.sendsOf x.2.gate := by simp [sendsOf, he]
  rw [h.sends] at hgate
  obtain ⟨hx, hdue⟩ := mem_of_forwards hgate
  exact ⟨(mem_ofGate.mp hx).1, hdue⟩

theorem worked_grows (b : Board ι) (m : Move ι) : b.worked <+: (b.step m).worked := by
  cases m with
  | call c => exact List.prefix_rfl
  | use u => exact List.prefix_rfl
  | turn k =>
    show b.worked <+: (b.turn k).worked
    have hturned := turn_cases b k
    generalize b.turn k = b' at hturned ⊢
    cases hturned with
    | work c was => exact List.prefix_append _ _
    | stay | refuse | enter | leave | answer => exact List.prefix_rfl

/-- After a request to close a gate has done its work, nothing is queued through the gate until a
    later request opens it. -/
theorem Linear.quiet (h : Linear capacity b) {x : Caller ι} (hx : x ∈ b.worked)
    (hcloses : x.2.asks? = some false) (later : List (Move ι)) :
    (b.run later).sendsOf x.2.gate = b.sendsOf x.2.gate ∨
      ∃ before after, (b.run later).locked = before ++ x :: after ∧
        ∃ y ∈ after, y.2.gate = x.2.gate ∧ y.2.asks? = some true := by
  have hlater : Linear capacity (b.run later) := run_induction h (fun _ m h => h.step m) later
  have hgrows : b.worked <+: (b.run later).worked :=
    run_induction (P := fun b' => b.worked <+: b'.worked) List.prefix_rfl
      (fun b' m h => h.trans (worked_grows b' m)) later
  have hx' := hgrows.subset hx
  obtain ⟨before, after, hlocked⟩ := List.append_of_mem (hlater.locked_of_worked hx')
  by_cases hopens : ∃ y ∈ after, y.2.gate = x.2.gate ∧ y.2.asks? = some true
  · exact .inr ⟨before, after, hlocked, hopens⟩
  apply Or.inl
  obtain ⟨more, hmore⟩ := hgrows
  obtain ⟨rest, hworked', hbefore, hrest, hafter⟩ := hlater.split hlocked hx'
  obtain ⟨first, middle, hworked⟩ :=
    List.append_of_mem ((mem_ofGate (g := x.2.gate)).mpr ⟨hx, rfl⟩)
  have hparts : rest = middle ++ ofGate x.2.gate more := by
    have htwice := hworked'
    rw [← hmore, ofGate_append, hworked, List.append_assoc, List.cons_append] at htwice
    exact ((List.append_cons_inj_of_notMem hbefore hrest).mp htwice.symm).2.2
  have hclosed : ∀ y ∈ rest, y.2.asks? ≠ some true := by
    intro y hy hasks
    have hmem : y ∈ ofGate x.2.gate (b.run later).worked := by
      rw [hworked']
      exact List.mem_append_right _ (List.mem_cons_of_mem _ hy)
    exact hopens ⟨y, hafter y hy, (mem_ofGate.mp hmem).2, hasks⟩
  rw [hparts] at hclosed
  have hshut : isOpenAfter false (ofGate x.2.gate b.worked) = false := by
    rw [hworked, isOpenAfter_append]
    show isOpenAfter (x.2.asks?.getD _) middle = false
    rw [hcloses]
    exact isOpenAfter_of_closed fun y hy => hclosed y (List.mem_append_left _ hy)
  rw [hlater.sends, h.sends, ← hmore, ofGate_append, forwards_append, hshut,
    forwards_of_closed fun y hy => hclosed y (List.mem_append_right _ hy), List.append_nil]

/-- A gate changes only when a valid request to it works. -/
theorem gates_step {m : Move ι} {g : ι} (hchanged : (b.step m).gates g ≠ b.gates g) :
    ∃ k params isOpen, m = .turn k ∧ b.threads[k]? = some ⟨.toggle g params, .entered⟩ ∧
      asked? params = some isOpen ∧ ((b.step m).gates g).isOpen = isOpen := by
  cases m with
  | call c => exact absurd rfl hchanged
  | use u => exact absurd rfl hchanged
  | turn k =>
    change (b.turn k).gates g ≠ b.gates g at hchanged
    show ∃ k' params isOpen, _ ∧ _ ∧ _ ∧ ((b.turn k).gates g).isOpen = isOpen
    have hturned := turn_cases b k
    generalize b.turn k = b' at hturned hchanged ⊢
    cases hturned with
    | stay | refuse | enter | leave | answer => exact absurd rfl hchanged
    | work c was =>
      change (b.work k c).gates g ≠ b.gates g at hchanged
      show ∃ k' params isOpen, _ ∧ _ ∧ _ ∧ ((b.work k c).gates g).isOpen = isOpen
      cases c with
      | notify callbacks change object => exact absurd rfl hchanged
      | toggle gate params =>
        by_cases hg : gate = g
        · subst hg
          have hopen : ((b.work k (.toggle gate params)).gates gate).isOpen =
              (asked? params).getD (b.gates gate).isOpen :=
            (gates_work b k _ gate).trans (if_pos rfl)
          cases hasked : asked? params with
          | some isOpen =>
            rw [hasked] at hopen
            exact ⟨k, params, isOpen, rfl, was, hasked, hopen⟩
          | none =>
            rw [hasked] at hopen
            exact absurd (congrArg Gate.mk hopen) hchanged
        · exact absurd (Function.update_of_ne (Ne.symm hg) _ _) hchanged

/-! ### The switch -/

/-- What can be relied on of all gates of a board, however it goes on. -/
structure Switched (capacity : Nat) (b : Board ι) : Prop where
  /-- Every call takes a lock, and only once, unless it is refused. -/
  locks : (b.locked.map Prod.fst).Nodup ∧ ∀ k c, (k, c) ∈ b.locked ↔
    ∃ phase, b.threads[k]? = some ⟨c, phase⟩ ∧ phase ≠ .called ∧ c.refusal? = none
  /-- No two calls have the lock of one gate. -/
  exclusive : ∀ (k m : Nat) (t u : Thread ι), b.threads[k]? = some t → b.threads[m]? = some u →
    t.phase.hasLock = true → u.phase.hasLock = true → t.call.gate = u.call.gate → k = m
  /-- A change is queued, once and as it is, if and only if the last valid request to its gate that
      took the lock before it asked for an open gate. -/
  queued : ∀ (before after : List (Caller ι)) (k : Nat) (callbacks : Callbacks ι) (change : Change)
    (object : Json) (phase : Phase),
    b.locked = before ++ (k, .notify callbacks change object) :: after →
    b.threads[k]? = some ⟨.notify callbacks change object, phase⟩ → phase ≠ .entered →
    b.sentBy (k, .notify callbacks change object) =
      if lastAsked callbacks.gate before then [report callbacks.label change object] else []
  /-- Nothing else is queued. -/
  sent : ∀ x e, (x, e) ∈ b.sends → x ∈ b.locked ∧
    b.threads[x.1]? ≠ some ⟨x.2, .entered⟩ ∧ ∃ callbacks change object,
      x.2 = .notify callbacks change object ∧ e = report callbacks.label change object
  /-- A request that is not valid is refused, and touches no gate. -/
  refused : ∀ (k : Nat) (g : ι) (params : Json) (phase : Phase),
    b.threads[k]? = some ⟨.toggle g params, phase⟩ → asked? params = none →
    ∃ text, let answer := some (Response.error .paramsError text)
      phase = .returned answer ∨ phase = .called ∧ (b.step (.turn k)).gates = b.gates ∧
        (b.step (.turn k)).threads[k]? = some ⟨.toggle g params, .returned answer⟩
  /-- A valid request that has returned was accepted. -/
  accepted : ∀ (k : Nat) (g : ι) (params : Json) (isOpen : Bool) (answer : Option Response),
    b.threads[k]? = some ⟨.toggle g params, .returned answer⟩ → asked? params = some isOpen →
    answer = some Gate.accepted
  /-- A gate is as the last valid request asked for when nobody has its lock. -/
  gate : ∀ g, b.owner? g = none → (b.gates g).isOpen = lastAsked g b.locked
  /-- Only a valid request to a gate changes it. -/
  alone : ∀ (m : Move ι) (g : ι), (b.step m).gates g ≠ b.gates g →
    ∃ k params isOpen, m = .turn k ∧ b.threads[k]? = some ⟨.toggle g params, .entered⟩ ∧
      asked? params = some isOpen ∧ ((b.step m).gates g).isOpen = isOpen
  /-- When a request to close a gate has returned, nothing is queued through the gate until a later
      request opens it. -/
  closed : ∀ (k : Nat) (g : ι) (params : Json) (answer : Option Response),
    b.threads[k]? = some ⟨.toggle g params, .returned answer⟩ → asked? params = some false →
    ∀ later : List (Move ι), (b.run later).sendsOf g = b.sendsOf g ∨
      ∃ before after, (b.run later).locked = before ++ (k, .toggle g params) :: after ∧
        ∃ y ∈ after, y.2.gate = g ∧ y.2.asks? = some true
  /-- Changes of one gate are queued in the order in which their calls took the lock. -/
  order : ∀ g, ((b.sendsOf g).map Prod.fst).Sublist b.locked
  /-- What was sent to the queue has left it or is in it, in the order of sending, with what the
      calls have queued, in their order, among it. -/
  queue : let uses := b.uses.map Prod.snd
    ((Outbound.ofCapacity capacity).record uses).map Prod.fst ++ b.outbound.queue =
        Outbound.sent uses ∧
      (b.sends.map Prod.snd).Sublist (Outbound.sent uses)

theorem Linear.refused (h : Linear capacity b) {g : ι} {params : Json}
    (ht : b.threads[k]? = some ⟨.toggle g params, p⟩) (hinvalid : asked? params = none) :
    ∃ text, let answer := some (Response.error .paramsError text)
      p = .returned answer ∨ p = .called ∧ (b.step (.turn k)).gates = b.gates ∧
        (b.step (.turn k)).threads[k]? = some ⟨.toggle g params, .returned answer⟩ := by
  obtain ⟨text, hrefusal⟩ := Call.refusal?_of_not_asked (g := g) hinvalid
  refine ⟨text, ?_⟩
  have hrefused : (Call.toggle g params).refusal? ≠ none := by simp [hrefusal]
  rcases h.orderly.refused k _ p ht hrefused with rfl | ⟨answer, rfl⟩
  · have hturn : b.step (.turn k) =
        b.goto k (.returned (some (Response.error .paramsError text))) := by
      simp [Board.step, turn, ht, hrefusal]
    refine .inr ⟨rfl, by rw [hturn]; rfl, ?_⟩
    rw [hturn, threads_goto ht, if_pos rfl]
  · have hanswer := h.orderly.answer k _ answer ht
    rw [hrefusal] at hanswer
    exact .inl (congrArg Phase.returned hanswer)

/-- **A gate is a switch**, whatever threads call it and all the others, and in whatever order they
    take their steps. -/
theorem gate_is_a_switch (capacity : Nat) (moves : List (Move ι)) :
    Switched capacity ((start capacity).run moves) := by
  have h := linear_run capacity moves
  generalize (start capacity).run moves = b at h
  constructor
  case locks => exact ⟨h.orderly.distinct, h.orderly.locked⟩
  case exclusive =>
    intro k m t u ht hu hlock hlock' hgate
    exact h.orderly.owned.exclusive ht hu hlock hlock' hgate
  case queued =>
    intro before after k callbacks change object phase hlocked ht hphase
    have hin : (k, .notify callbacks change object) ∈ b.locked := by simp [hlocked]
    have hworked : (k, .notify callbacks change object) ∈ b.worked := by
      rw [h.worked_iff hin, ht]
      simpa using hphase
    exact h.sentBy hlocked hworked
  case sent =>
    rintro x e he
    obtain ⟨hworked, isOpen, hdue⟩ := h.mem_sends he
    have hlocked := h.locked_of_worked hworked
    exact ⟨hlocked, (h.worked_iff hlocked).mp hworked, Call.eq_report_of_due hdue⟩
  case refused =>
    intro k g params phase ht hinvalid
    exact h.refused ht hinvalid
  case accepted =>
    intro k g params isOpen answer ht hasked
    have hanswer := h.orderly.answer k _ answer ht
    rwa [Call.refusal?_of_asked hasked] at hanswer
  case gate =>
    intro g hfree
    rw [h.gate, lastAsked_eq, h.line, pending_of_free hfree, List.append_nil]
  case alone =>
    intro m g hchanged
    exact gates_step hchanged
  case closed =>
    intro k g params answer ht hasked later
    have hlocked : (k, .toggle g params) ∈ b.locked :=
      (h.orderly.locked k _).mpr ⟨_, ht, by simp, Call.refusal?_of_asked hasked⟩
    have hworked := (h.worked_iff hlocked).mpr (by simp [ht])
    exact h.quiet hworked hasked later
  case order =>
    intro g
    have hworked : (ofGate g b.worked).Sublist (ofGate g b.locked) := by
      rw [h.line]
      exact List.sublist_append_left _ _
    rw [h.sends]
    exact ((forwards_sublist false _).trans hworked).trans List.filter_sublist
  case queue =>
    have hroom : 1 ≤ (Outbound.ofCapacity capacity).capacity := Nat.le_max_right capacity 1
    have haccounts := Outbound.accounts_after hroom (Nat.zero_le _) (b.uses.map Prod.snd)
    constructor
    · rw [h.queue]
      exact haccounts.order
    · exact sends_sublist b

/-- One gate of two is opened and told of a change; a request to close it waits for the change, and
    the next change comes too late.  The other gate is never opened. -/
def opened : Board Bool :=
  let request (action : String) : Json := .object [("action", .string action)]
  (start 4).run
    [.call (.toggle true (request "open")), .turn 0, .turn 0, .turn 0, .turn 0,
      .call (.notify ⟨true, "pods"⟩ .add (.string "web")), .turn 1,
      .call (.toggle true (request "close")), .turn 2,
      .call (.notify ⟨true, "pods"⟩ .delete (.string "web")),
      .call (.notify ⟨false, "pods"⟩ .add (.string "web")), .turn 4, .turn 4, .turn 4,
      .turn 1, .turn 1, .turn 2, .turn 2, .turn 2, .turn 2, .turn 3, .turn 3, .turn 3]

example : opened.sends = [((1, .notify ⟨true, "pods"⟩ .add (.string "web")),
      report "pods" .add (.string "web"))] ∧
    opened.locked.map Prod.fst = [0, 1, 4, 2, 3] := by
  decide +kernel

end Board

end ClusterAgent.Watch
