/-
  ClusterAgent/Proofs/Tunnel/Delivery.lean
  ========================================
  **No envelope is lost between two connections, and none is sent twice.**

  The ledger of all envelopes falls into four parts, in this order (`Balanced`):

    * those whose fate is settled, evicted or given to a connection;
    * the one in the writer's hand, if there is one;
    * those that were evicted since the writer last took one;
    * the queue.

  Queueing, taking and sending move the borders between these parts and nothing else,
  and no other event moves them at all.  What the tunnel counts and what it has given to
  each connection is read off the settled part.
-/
import ClusterAgent.Proofs.Outbound
import ClusterAgent.Proofs.Tunnel.Ledger

namespace ClusterAgent.Tunnel

namespace Place

def isSent : Place → Bool
  | .handed _ isDelivered => isDelivered
  | _ => false

def isLost : Place → Bool
  | .handed _ isDelivered => !isDelivered
  | _ => false

def isSettled : Place → Bool
  | .evicted => true
  | .handed .. => true
  | _ => false

end Place

def Ledger.line (p : Place) (es : List Envelope) : Ledger :=
  es.map (·, p)

/-! ### The four parts -/

/-- What the books say of the envelopes whose fate is settled. -/
structure Settled (b : Books) (past : Ledger) : Prop where
  settled : ∀ x ∈ past, x.2.isSettled
  sent : past.countP (·.2.isSent) = b.sent
  failed : past.countP (·.2.isLost) = b.failed
  given : ∀ k, (past.handedTo k).map Prod.fst = b.given[k]?.getD []
  order : (past.filter (·.2.connection?.isSome)).map Prod.fst = b.given.flatten
  lostLast : ∀ k, ∀ x ∈ (past.handedTo k).dropLast, x.2 = .handed k true
  /-- A writer that has lost an envelope is done. -/
  present : ∀ w, b.writer = some w → b.given ≠ [] ∧
    (w ≠ .done → ∀ x ∈ past.handedTo (b.given.length - 1), x.2 = .handed (b.given.length - 1) true)

/-- The ledger in its four parts. -/
structure Balanced (b : Books) (past : Ledger) (late : List Envelope) (l : Ledger) : Prop where
  parts : l = past ++ Ledger.line .inHand b.hand ++ Ledger.line .evicted late ++
    Ledger.line .queued b.outbound.queue
  settled : Settled b past
  dropped : past.countP (·.2 = .evicted) + late.length = b.outbound.dropped

theorem mem_line {p : Place} {es : List Envelope} {x : Envelope × Place}
    (h : x ∈ Ledger.line p es) : x.2 = p := by
  obtain ⟨e, -, rfl⟩ := List.mem_map.mp h
  rfl

theorem filter_line_of_false {p : Place} {f : Envelope × Place → Bool} (es : List Envelope)
    (h : ∀ e, f (e, p) = false) : (Ledger.line p es).filter f = [] := by
  apply List.filter_eq_nil_iff.mpr
  intro x hx
  obtain ⟨e, -, rfl⟩ := List.mem_map.mp hx
  simp [h]

theorem countP_line_of_false {p : Place} {f : Envelope × Place → Bool} (es : List Envelope)
    (h : ∀ e, f (e, p) = false) : (Ledger.line p es).countP f = 0 := by
  rw [List.countP_eq_length_filter, filter_line_of_false es h]
  rfl

theorem countP_line_of_true {p : Place} {f : Envelope × Place → Bool} (es : List Envelope)
    (h : ∀ e, f (e, p) = true) : (Ledger.line p es).countP f = es.length := by
  have hall : ∀ x ∈ Ledger.line p es, f x = true := by
    intro x hx
    obtain ⟨e, -, rfl⟩ := List.mem_map.mp hx
    exact h e
  rw [List.countP_eq_length.mpr hall]
  exact List.length_map _

/-! ### How the settled part grows -/

theorem Settled.of_eq {b b' : Books} {past : Ledger} (h : Settled b past)
    (hsent : b'.sent = b.sent) (hfailed : b'.failed = b.failed) (hgiven : b'.given = b.given)
    (hwriter : ∀ w, b'.writer = some w → ∃ v, b.writer = some v ∧ (v = .done → w = .done)) :
    Settled b' past where
  settled := h.settled
  sent := h.sent.trans hsent.symm
  failed := h.failed.trans hfailed.symm
  given k := by rw [hgiven]; exact h.given k
  order := by rw [hgiven]; exact h.order
  lostLast := h.lostLast
  present w hw := by
    obtain ⟨v, hv, hvw⟩ := hwriter w hw
    rw [hgiven]
    obtain ⟨hne, hall⟩ := h.present v hv
    exact ⟨hne, fun hw => hall fun hv => hw (hvw hv)⟩

theorem Settled.evict {b : Books} {past : Ledger} (h : Settled b past) (es : List Envelope) :
    Settled b (past ++ Ledger.line .evicted es) := by
  have hto : ∀ k, (past ++ Ledger.line .evicted es).handedTo k = past.handedTo k := by
    intro k
    unfold Ledger.handedTo
    rw [List.filter_append, filter_line_of_false es fun _ => rfl, List.append_nil]
  constructor
  · intro x hx
    rcases List.mem_append.mp hx with hx | hx
    · exact h.settled x hx
    · rw [mem_line hx]
      rfl
  · rw [List.countP_append, countP_line_of_false es fun _ => rfl]
    exact h.sent
  · rw [List.countP_append, countP_line_of_false es fun _ => rfl]
    exact h.failed
  · intro k
    rw [hto]
    exact h.given k
  · rw [List.filter_append, filter_line_of_false es fun _ => rfl, List.append_nil]
    exact h.order
  · intro k
    rw [hto]
    exact h.lostLast k
  · intro w hw
    rw [hto]
    exact h.present w hw

theorem Settled.dial {b : Books} {past : Ledger} (h : Settled b past) :
    Settled { b with given := b.given ++ [[]], writer := some .idle } past := by
  have hgiven : ∀ k : Nat, (b.given ++ [[]])[k]?.getD [] = b.given[k]?.getD [] := by
    intro k
    rcases Nat.lt_trichotomy k b.given.length with hlt | rfl | hgt
    · rw [List.getElem?_append_left hlt]
    · simp
    · rw [List.getElem?_eq_none (by simp; omega), List.getElem?_eq_none (by omega)]
  constructor
  · exact h.settled
  · exact h.sent
  · exact h.failed
  · intro k
    rw [hgiven]
    exact h.given k
  · simp [h.order]
  · exact h.lostLast
  · intro w hw
    refine ⟨by simp, fun _ x hx => ?_⟩
    have hnone : (past.handedTo b.given.length).map Prod.fst = [] := by
      rw [h.given]
      simp
    have hempty : past.handedTo b.given.length = [] := List.map_eq_nil_iff.mp hnone
    simp [hempty] at hx

/-- What the writer gives to the present connection is settled. -/
theorem Settled.give {b b' : Books} {past : Ledger} {w : Writer} (h : Settled b past)
    (hw : b.writer = some w) (hnot : w ≠ .done) (e : Envelope) (isDelivered : Bool)
    (hgiven : b'.given = Books.give b.given e)
    (hsent : b'.sent = b.sent + if isDelivered then 1 else 0)
    (hfailed : b'.failed = b.failed + if isDelivered then 0 else 1)
    (hwriter : b'.writer = some (if isDelivered then .idle else .done)) :
    Settled b' (past ++ [(e, .handed (b.given.length - 1) isDelivered)]) := by
  obtain ⟨hne, hpresent⟩ := h.present w hw
  have hpresent := hpresent hnot
  have hinit := List.dropLast_concat_getLast hne
  generalize b.given.dropLast = init at hinit
  generalize b.given.getLast hne = last at hinit
  have hgive : b'.given = init ++ [last ++ [e]] := by
    rw [hgiven, ← hinit]
    simp [Books.give]
  have hlast : b.given.length - 1 = init.length := by simp [← hinit]
  rw [hlast] at hpresent ⊢
  let line : Envelope × Place := (e, .handed init.length isDelivered)
  have hto : ∀ k, (past ++ [line]).handedTo k =
      past.handedTo k ++ if k = init.length then [line] else [] := by
    intro k
    unfold Ledger.handedTo
    rw [List.filter_append]
    by_cases hk : k = init.length
    · simp [line, Place.connection?, hk]
    · simp [line, Place.connection?, hk, Ne.symm hk]
  constructor
  · intro x hx
    rcases List.mem_append.mp hx with hx | hx
    · exact h.settled x hx
    · rw [List.mem_singleton.mp hx]
      rfl
  · rw [List.countP_append, h.sent, hsent]
    cases isDelivered <;> rfl
  · rw [List.countP_append, h.failed, hfailed]
    cases isDelivered <;> rfl
  · intro k
    rw [hto, List.map_append, h.given, hgive, ← hinit]
    rcases Nat.lt_trichotomy k init.length with hlt | rfl | hgt
    · simp [List.getElem?_append_left hlt, Nat.ne_of_lt hlt]
    · simp [line]
    · rw [List.getElem?_eq_none (by simp; omega), List.getElem?_eq_none (by simp; omega)]
      simp [Nat.ne_of_gt hgt]
  · rw [List.filter_append, List.map_append, h.order, hgive, ← hinit]
    simp [Place.connection?]
  · intro k x hx
    rw [hto] at hx
    by_cases hk : k = init.length
    · subst hk
      simp only [if_true, List.dropLast_concat] at hx
      exact hpresent x hx
    · simp only [hk, if_false, List.append_nil] at hx
      exact h.lostLast k x hx
  · intro w' hw'
    obtain rfl : (if isDelivered then Writer.idle else Writer.done) = w' :=
      Option.some.inj (hwriter.symm.trans hw')
    refine ⟨by simp [hgive], fun hnotdone x hx => ?_⟩
    have hlength : b'.given.length - 1 = init.length := by simp [hgive]
    cases isDelivered with
    | false => exact absurd rfl hnotdone
    | true =>
      rw [hlength, hto, if_pos rfl] at hx
      rw [hlength]
      rcases List.mem_append.mp hx with hx | hx
      · exact hpresent x hx
      · rw [List.mem_singleton.mp hx]

/-! ### Steps -/

theorem line_cons (p : Place) (e : Envelope) (es : List Envelope) :
    Ledger.line p (e :: es) = (e, p) :: Ledger.line p es :=
  rfl

theorem Settled.ne_inHand {b : Books} {past : Ledger} (h : Settled b past) :
    ∀ x ∈ past, x.2 ≠ .inHand := by
  intro x hx heq
  have hsettled := h.settled x hx
  rw [heq] at hsettled
  cases hsettled

theorem Settled.ne_queued {b : Books} {past : Ledger} (h : Settled b past)
    (hand late : List Envelope) :
    ∀ x ∈ past ++ Ledger.line .inHand hand ++ Ledger.line .evicted late, x.2 ≠ .queued := by
  intro x hx heq
  rcases List.mem_append.mp hx with hx | hx
  · rcases List.mem_append.mp hx with hx | hx
    · have hsettled := h.settled x hx
      rw [heq] at hsettled
      cases hsettled
    · cases (mem_line hx).symm.trans heq
  · cases (mem_line hx).symm.trans heq

/-- A full queue gives its oldest envelope up for the new one. -/
theorem Balanced.queue {b : Books} {past : Ledger} {late : List Envelope} {l : Ledger}
    (h : Balanced b past late l) (e : Envelope) :
    ∃ late', Balanced { b with outbound := b.outbound.send e } past late'
      (l.after b (.queued e)) := by
  have hsettled : ∀ outbound, Settled { b with outbound } past :=
    fun _ => h.settled.of_eq rfl rfl rfl fun w hw => ⟨w, hw, id⟩
  have hnone := h.settled.ne_queued b.hand late
  simp only [Ledger.after]
  by_cases hfull : b.outbound.capacity ≤ b.outbound.queue.length
  · rw [if_pos hfull]
    cases hqueue : b.outbound.queue with
    | nil =>
      refine ⟨late, ?_, hsettled _, ?_⟩
      · rw [h.parts, hqueue, Outbound.send_of_nil hqueue, Ledger.move_of_absent]
        · rw [show Ledger.line .queued [] = [] from rfl, List.append_nil]
          rfl
        · intro x hx
          rw [show Ledger.line .queued [] = [] from rfl, List.append_nil] at hx
          exact hnone x hx
      · rw [Outbound.send_of_nil hqueue]
        exact h.dropped
    | cons oldest rest =>
      refine ⟨late ++ [oldest], ?_, hsettled _, ?_⟩
      · rw [h.parts, hqueue, line_cons, Ledger.move_append_cons _ hnone,
          Outbound.send_of_full hfull hqueue]
        show _ = past ++ Ledger.line .inHand b.hand ++ Ledger.line .evicted (late ++ [oldest]) ++
          Ledger.line .queued (rest ++ [e])
        simp [Ledger.line]
      · rw [Outbound.send_of_full hfull hqueue, List.length_append, ← Nat.add_assoc, h.dropped]
        rfl
  · rw [if_neg hfull]
    refine ⟨late, ?_, hsettled _, ?_⟩
    · rw [h.parts, Outbound.send_of_room (Nat.not_le.mp hfull)]
      show _ = past ++ Ledger.line .inHand b.hand ++ Ledger.line .evicted late ++
        Ledger.line .queued (b.outbound.queue ++ [e])
      simp [Ledger.line]
    · rw [Outbound.send_of_room (Nat.not_le.mp hfull)]
      exact h.dropped

/-- The writer takes the oldest envelope of the queue. -/
theorem Balanced.take {b : Books} {past : Ledger} {late : List Envelope} {l : Ledger}
    (h : Balanced b past late l) {e : Envelope} {rest : List Envelope}
    (hidle : b.writer = some .idle) (hqueue : b.outbound.queue = e :: rest) :
    Balanced
      { b with outbound := { b.outbound with queue := rest }, writer := some (.sending e) }
      (past ++ Ledger.line .evicted late) [] (l.after b .taken) := by
  have hhand : b.hand = [] := by
    unfold Books.hand
    rw [hidle]
  constructor
  · show l.move .queued .inHand = past ++ Ledger.line .evicted late ++ Ledger.line .inHand [e] ++
      Ledger.line .evicted [] ++ Ledger.line .queued rest
    rw [h.parts, hqueue, line_cons, Ledger.move_append_cons _ (h.settled.ne_queued b.hand late),
      hhand]
    simp [Ledger.line]
  · refine (h.settled.evict late).of_eq rfl rfl rfl fun w hw => ⟨.idle, hidle, ?_⟩
    intro hdone
    cases hdone
  · show _ + 0 = b.outbound.dropped
    rw [List.countP_append, countP_line_of_true late fun _ => rfl]
    exact h.dropped

/-- What the writer has sent or lost is settled. -/
theorem Balanced.give {b b' : Books} {past : Ledger} {late : List Envelope} {l : Ledger}
    (h : Balanced b past late l) {e : Envelope} (isDelivered : Bool)
    (hsending : b.writer = some (.sending e)) (houtbound : b'.outbound = b.outbound)
    (hgiven : b'.given = Books.give b.given e)
    (hsent : b'.sent = b.sent + if isDelivered then 1 else 0)
    (hfailed : b'.failed = b.failed + if isDelivered then 0 else 1)
    (hwriter : b'.writer = some (if isDelivered then .idle else .done)) :
    Balanced b' (past ++ [(e, .handed (b.given.length - 1) isDelivered)]) late
      (l.after b (.sent isDelivered)) := by
  have hhand : b.hand = [e] := by
    unfold Books.hand
    rw [hsending]
  have hhand' : b'.hand = [] := by
    unfold Books.hand
    rw [hwriter]
    cases isDelivered <;> rfl
  constructor
  · show l.move .inHand _ = _
    rw [h.parts, hhand, hhand', houtbound, line_cons, List.append_assoc, List.append_assoc,
      List.cons_append, Ledger.move_append_cons _ h.settled.ne_inHand]
    simp [Ledger.line]
  · exact h.settled.give hsending (fun hdone => by cases hdone) e isDelivered hgiven hsent hfailed
      hwriter
  · rw [List.countP_append, houtbound, ← h.dropped]
    simp

theorem Balanced.step {b b' : Books} {past : Ledger} {late : List Envelope} {l : Ledger}
    {event : Event} (h : Balanced b past late l) (hstep : Books.Step b event b') :
    ∃ past' late', Balanced b' past' late' (l.after b event) := by
  cases hstep with
  | queue e =>
    obtain ⟨late', h'⟩ := h.queue e
    exact ⟨past, late', h'⟩
  | dial hnone =>
    have hhand : b.hand = [] := by
      unfold Books.hand
      rw [hnone]
    refine ⟨past, late, ?_, h.settled.dial, h.dropped⟩
    rw [show l.after b .dialed = l from rfl, h.parts, hhand]
    rfl
  | take e rest hidle hqueue => exact ⟨_, _, h.take hidle hqueue⟩
  | deliver e hsending => exact ⟨_, _, h.give true hsending rfl rfl rfl rfl rfl⟩
  | lose e hsending => exact ⟨_, _, h.give false hsending rfl rfl rfl rfl rfl⟩
  | quit event hother hidle =>
    have hhand : b.hand = [] := by
      unfold Books.hand
      rw [hidle]
    refine ⟨past, late, ?_, h.settled.of_eq rfl rfl rfl ?_, h.dropped⟩
    · rw [Ledger.after_other l b hother, h.parts, hhand]
      rfl
    · intro w hw
      refine ⟨.idle, hidle, fun hdone => ?_⟩
      cases hdone
  | close event hother hidle =>
    have hhand : b.hand = [] := by
      unfold Books.hand
      split
      · rename_i e he
        exact absurd he (hidle e)
      · rfl
    refine ⟨past, late, ?_, h.settled.of_eq rfl rfl rfl ?_, h.dropped⟩
    · rw [Ledger.after_other l b hother, h.parts, hhand]
      rfl
    · intro w hw
      cases hw
  | other event hother =>
    refine ⟨past, late, ?_⟩
    rw [Ledger.after_other l b hother]
    exact h

theorem Balanced.along {t u : Tunnel} {events : List Event} {past : Ledger}
    {late : List Envelope} {l : Ledger} (h : Balanced t.books past late l)
    (hrun : t.run events = some u) :
    ∃ past' late', Balanced u.books past' late' (l.along t events) := by
  induction events generalizing t l past late with
  | nil =>
    obtain rfl := Option.some.inj hrun
    exact ⟨past, late, h⟩
  | cons event rest ih =>
    obtain ⟨v, hv, hrest⟩ := run_cons hrun
    obtain ⟨past', late', h'⟩ := h.step (step_books hv)
    simp only [Ledger.along, hv]
    exact ih h' hrest

theorem balanced_start (capacity : Nat) : Balanced (ofCapacity capacity).books [] [] [] where
  parts := rfl
  settled :=
    { settled := fun _ hx => by cases hx
      sent := rfl
      failed := rfl
      given := fun _ => by simp [Ledger.handedTo, books, ofCapacity]
      order := rfl
      lostLast := fun _ _ hx => by cases hx
      present := fun _ hw => by cases hw }
  dropped := rfl

/-! ### What the ledger says -/

/-- The ledger accounts for every envelope that was queued, and agrees with what others can see of
    the tunnel. -/
structure Accounts (t : Tunnel) (events : List Event) (l : Ledger) : Prop where
  sends : l.map Prod.fst = sends events
  queued : l.inPlace .queued = t.outbound.queue
  evicted : (l.inPlace .evicted).length = t.outbound.dropped
  inHand : l.inPlace .inHand = t.books.hand
  sent : l.countP (·.2.isSent) = t.stats.sent
  failed : l.countP (·.2.isLost) = t.stats.failedSends
  given : ∀ k : Nat, (l.handedTo k).map Prod.fst = t.given[k]?.getD []
  order : (l.filter (·.2.connection?.isSome)).map Prod.fst = t.given.flatten
  lostLast : ∀ k, ∀ x ∈ (l.handedTo k).dropLast, x.2 = .handed k true

theorem inPlace_append (l l' : Ledger) (p : Place) :
    (l ++ l').inPlace p = l.inPlace p ++ l'.inPlace p := by
  simp [Ledger.inPlace]

theorem inPlace_line (p : Place) (es : List Envelope) :
    Ledger.inPlace (Ledger.line p es) p = es := by
  unfold Ledger.inPlace
  rw [List.filter_eq_self.mpr fun x hx => by simp [mem_line hx]]
  simp [Ledger.line, Function.comp_def]

theorem inPlace_line_of_ne {p q : Place} (h : p ≠ q) (es : List Envelope) :
    Ledger.inPlace (Ledger.line p es) q = [] := by
  unfold Ledger.inPlace
  rw [filter_line_of_false es fun _ => by simp [h]]
  rfl

theorem Settled.inPlace {b : Books} {past : Ledger} (h : Settled b past) {p : Place}
    (hp : p.isSettled = false) : past.inPlace p = [] := by
  unfold Ledger.inPlace
  rw [List.filter_eq_nil_iff.mpr]
  · rfl
  · intro x hx heq
    have hsettled := h.settled x hx
    rw [of_decide_eq_true heq, hp] at hsettled
    cases hsettled

/-- Only the settled part matters where nothing else can stand. -/
theorem Balanced.filter {b : Books} {past : Ledger} {late : List Envelope} {l : Ledger}
    (h : Balanced b past late l) {f : Envelope × Place → Bool}
    (hf : ∀ e, f (e, .inHand) = false ∧ f (e, .evicted) = false ∧ f (e, .queued) = false) :
    l.filter f = past.filter f := by
  rw [h.parts, List.filter_append, List.filter_append, List.filter_append,
    filter_line_of_false _ fun e => (hf e).1, filter_line_of_false _ fun e => (hf e).2.1,
    filter_line_of_false _ fun e => (hf e).2.2]
  simp

theorem Balanced.accounts {t : Tunnel} {events : List Event} {past : Ledger}
    {late : List Envelope} {l : Ledger} (h : Balanced t.books past late l)
    (hsends : l.map Prod.fst = Tunnel.sends events) : Accounts t events l := by
  have hto : ∀ k, l.handedTo k = past.handedTo k := by
    intro k
    exact h.filter fun e => ⟨rfl, rfl, rfl⟩
  have hqueued : past.inPlace .queued = [] := h.settled.inPlace rfl
  have hinHand : past.inPlace .inHand = [] := h.settled.inPlace rfl
  have hevicted : (past.inPlace .evicted).length + late.length = t.outbound.dropped := by
    have hdropped := h.dropped
    rw [List.countP_eq_length_filter] at hdropped
    unfold Ledger.inPlace
    rw [List.length_map]
    exact hdropped
  constructor
  · exact hsends
  · rw [h.parts]
    simp only [inPlace_append, inPlace_line, hqueued]
    rw [inPlace_line_of_ne (by decide), inPlace_line_of_ne (by decide)]
    rfl
  · rw [h.parts]
    simp only [inPlace_append, inPlace_line]
    rw [inPlace_line_of_ne (by decide), inPlace_line_of_ne (by decide)]
    simpa using hevicted
  · rw [h.parts]
    simp only [inPlace_append, inPlace_line, hinHand]
    rw [inPlace_line_of_ne (by decide), inPlace_line_of_ne (by decide)]
    simp
  · rw [List.countP_eq_length_filter, h.filter fun e => ⟨rfl, rfl, rfl⟩,
      ← List.countP_eq_length_filter]
    exact h.settled.sent
  · rw [List.countP_eq_length_filter, h.filter fun e => ⟨rfl, rfl, rfl⟩,
      ← List.countP_eq_length_filter]
    exact h.settled.failed
  · intro k
    rw [hto]
    exact h.settled.given k
  · rw [h.filter fun e => ⟨rfl, rfl, rfl⟩]
    exact h.settled.order
  · intro k
    rw [hto]
    exact h.settled.lostLast k

theorem accounts_run {capacity : Nat} {events : List Event} {t : Tunnel}
    (h : (ofCapacity capacity).run events = some t) :
    Accounts t events (Ledger.along [] (ofCapacity capacity) events) := by
  obtain ⟨past, late, hbalanced⟩ := (balanced_start capacity).along h
  apply hbalanced.accounts
  exact Ledger.map_fst_along h []

/-! ### Waiting for the next connection -/

/-- Between two moments the queue has only grown, but for what was evicted from its front. -/
def Grown (o o' : Outbound) (es : List Envelope) : Prop :=
  ∃ k, o'.queue = (o.queue ++ es).drop k ∧ o'.dropped = o.dropped + k ∧
    k ≤ (o.queue ++ es).length

theorem Grown.refl (o : Outbound) : Grown o o [] :=
  ⟨0, by simp, rfl, Nat.zero_le _⟩

theorem Grown.trans {o o' o'' : Outbound} {es es' : List Envelope} (h : Grown o o' es)
    (h' : Grown o' o'' es') : Grown o o'' (es ++ es') := by
  obtain ⟨k, hqueue, hdropped, hk⟩ := h
  obtain ⟨l, hqueue', hdropped', hl⟩ := h'
  have hmore : (o.queue ++ es).drop k ++ es' = (o.queue ++ (es ++ es')).drop k := by
    rw [← List.drop_append_of_le_length hk, List.append_assoc]
  rw [hqueue, hmore] at hqueue' hl
  refine ⟨k + l, ?_, ?_, ?_⟩
  · rw [hqueue', List.drop_drop]
  · rw [hdropped', hdropped, Nat.add_assoc]
  · rw [List.length_drop] at hl
    simp only [List.length_append] at hk hl ⊢
    omega

theorem Grown.queue_eq {o o' : Outbound} {es : List Envelope} (h : Grown o o' es) :
    o'.queue = (o.queue ++ es).drop (o'.dropped - o.dropped) := by
  obtain ⟨k, hqueue, hdropped, -⟩ := h
  rw [hqueue, hdropped, Nat.add_sub_cancel_left]

/-- Without a connection nobody takes anything out of the queue. -/
theorem Books.Step.waits {b b' : Books} {event : Event} (h : Books.Step b event b')
    (hnone : b.writer = none) (hdial : event ≠ .dialed) :
    b'.writer = none ∧ b'.given = b.given ∧ Grown b.outbound b'.outbound (sends [event]) := by
  have hother : event.IsOther → sends [event] = [] := by
    intro h
    cases event with
    | queued => exact h.elim
    | _ => rfl
  cases h with
  | queue e =>
    refine ⟨hnone, rfl, ?_⟩
    obtain ⟨k, hqueue, hdropped, hk⟩ := b.outbound.sendAll_queue [e]
    exact ⟨k, hqueue, hdropped, hk⟩
  | dial => exact absurd rfl hdial
  | take e rest hidle => cases hnone.symm.trans hidle
  | deliver e hsending => cases hnone.symm.trans hsending
  | lose e hsending => cases hnone.symm.trans hsending
  | quit event h hidle => cases hnone.symm.trans hidle
  | close event h hidle =>
    rw [hother h]
    exact ⟨rfl, rfl, Grown.refl _⟩
  | other event h =>
    rw [hother h]
    exact ⟨hnone, rfl, Grown.refl _⟩

theorem waits_run {t u : Tunnel} {events : List Event} (h : t.run events = some u)
    (hnone : t.books.writer = none) (hdial : .dialed ∉ events) :
    u.given = t.given ∧ Grown t.outbound u.outbound (sends events) := by
  induction events generalizing t with
  | nil =>
    obtain rfl := Option.some.inj h
    exact ⟨rfl, Grown.refl _⟩
  | cons event rest ih =>
    obtain ⟨v, hv, hrest⟩ := run_cons h
    obtain ⟨hnone', hgiven, hgrown⟩ := (step_books hv).waits hnone fun heq =>
      hdial (heq ▸ List.mem_cons_self)
    obtain ⟨hgiven', hgrown'⟩ := ih hrest hnone' fun hmem => hdial (List.mem_cons_of_mem _ hmem)
    refine ⟨hgiven'.trans hgiven, ?_⟩
    have hsends : sends (event :: rest) = sends [event] ++ sends rest :=
      List.filterMap_append (l := [event])
    rw [hsends]
    exact hgrown.trans hgrown'

/-! ### The contract -/

/-- **Delivery is accounted for across connections.**  Let a tunnel run to `t` and then on to `u`.
    At both moments the ledger accounts for every envelope that was ever queued: each is at one
    place, and queue, hand, counters and the envelopes given to each connection are what the ledger
    says, in the order of queueing.  From the first moment to the second, envelopes only move on;
    what was evicted or given to a connection stays so.  While there is no connection, the queue
    keeps all that it held and all that comes, in order, but for what it evicts. -/
theorem delivery_accounted_for (capacity : Nat) (events later : List Event) (t u : Tunnel)
    (ht : (ofCapacity capacity).run events = some t) (hu : t.run later = some u) :
    let ledger := Ledger.along [] (ofCapacity capacity)
    Accounts t events (ledger events) ∧ Accounts u (events ++ later) (ledger (events ++ later)) ∧
      Ledger.Extends (ledger (events ++ later)) (ledger events) ∧
      ((∀ c, t.phase ≠ .connected c) → .dialed ∉ later → u.given = t.given ∧
        u.outbound.queue =
          (t.outbound.queue ++ sends later).drop (u.outbound.dropped - t.outbound.dropped)) := by
  intro ledger
  refine ⟨accounts_run ht, accounts_run (run_append ht hu), ?_, ?_⟩
  · show Ledger.Extends (Ledger.along [] (ofCapacity capacity) (events ++ later)) _
    rw [Ledger.along_append ht]
    exact Ledger.extends_along _ t later
  · intro hphase hdial
    have hnone : t.books.writer = none := by
      show t.phase.writer? = none
      unfold Phase.writer?
      split
      · rename_i c hc
        exact absurd hc (hphase c)
      · rfl
    obtain ⟨hgiven, hgrown⟩ := waits_run hu hnone hdial
    exact ⟨hgiven, hgrown.queue_eq⟩

/-- A connection is lost with an envelope on it while three more are queued for two places; the next
    connection goes on with the two that are left. -/
theorem delivery_accounted_for_after_loss :
    let envelope := fun id : String => Envelope.log id []
    let events : List Event :=
      [.start, .dialed, .queued (envelope "a"), .taken, .sent true, .queued (envelope "b"), .taken,
       .queued (envelope "c"), .queued (envelope "d"), .queued (envelope "e"), .sent false,
       .readerNotices, .closed]
    let later : List Event := [.queued (envelope "f"), .dialFailed]
    ∃ t u, (ofCapacity 2).run events = some t ∧ t.run later = some u ∧
      t.given = [[envelope "a", envelope "b"]] ∧ t.outbound.queue = [envelope "d", envelope "e"] ∧
      Accounts t events (Ledger.along [] (ofCapacity 2) events) ∧
      u.given = t.given ∧ u.outbound.queue =
        (t.outbound.queue ++ [envelope "f"]).drop (u.outbound.dropped - t.outbound.dropped) := by
  intro envelope events later
  obtain ⟨t, ht⟩ := Option.isSome_iff_exists.mp
    (show ((ofCapacity 2).run events).isSome from by decide +kernel)
  obtain ⟨u, hu⟩ := Option.isSome_iff_exists.mp
    (show (((ofCapacity 2).run events).bind fun t => t.run later).isSome from by decide +kernel)
  have hfacts : ((ofCapacity 2).run events).map (fun t => (t.given, t.outbound.queue, t.phase)) =
      some ([[envelope "a", envelope "b"]], [envelope "d", envelope "e"], .dialing) := by
    decide +kernel
  rw [ht] at hu hfacts
  obtain ⟨hgiven, hqueue, hphase⟩ : t.given = [[envelope "a", envelope "b"]] ∧
      t.outbound.queue = [envelope "d", envelope "e"] ∧ t.phase = .dialing := by
    simpa using hfacts
  obtain ⟨haccounts, -, -, hwaits⟩ := delivery_accounted_for 2 events later t u ht hu
  obtain ⟨hsame, hgrown⟩ := hwaits (fun c hc => by rw [hphase] at hc; cases hc) (by decide)
  exact ⟨t, u, ht, hu, hgiven, hqueue, haccounts, hsame, hgrown⟩

end ClusterAgent.Tunnel
