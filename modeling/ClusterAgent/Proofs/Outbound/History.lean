/-
  ClusterAgent/Proofs/Outbound/History.lean
  =========================================
  **Where every envelope of the outbound queue went.**

  Producers and the writer share one queue, so whatever they do to it happens in
  some order: a *history* is any list of sends and receives.  Beside the queue runs a
  record of the envelopes that have left it, each with its fate.  Record and queue
  together are all envelopes ever sent, in the order of sending (`accounts_after`); from
  this follow the bound, the balance of the counters and what is left after sends alone.
-/
import ClusterAgent.Proofs.Outbound

namespace ClusterAgent.Outbound

/-- What is done to a queue through one of its handles. -/
inductive Use where
  | send (e : Envelope)
  /-- An attempt to take the oldest envelope.  Whoever waits for one makes attempts until one
      succeeds. -/
  | receive
deriving DecidableEq, Repr

def use (o : Outbound) : Use → Outbound
  | .send e => o.send e
  | .receive => o.receive?.2

def useAll (o : Outbound) (uses : List Use) : Outbound :=
  uses.foldl use o

/-- The envelopes that were sent, in order. -/
def sent (uses : List Use) : List Envelope :=
  uses.filterMap fun
    | .send e => some e
    | .receive => none

/-- What a use hands to whoever made it. -/
def result? (o : Outbound) : Use → Option Envelope
  | .send _ => none
  | .receive => o.receive?.1

/-- The envelopes that the receivers got, in order. -/
def received (o : Outbound) : List Use → List Envelope
  | [] => []
  | u :: rest => (o.result? u).toList ++ (o.use u).received rest

/-! ### The record -/

inductive Fate where
  | received
  | evicted
deriving DecidableEq, Repr

/-- Who has to leave: the oldest envelope, for the receiver who takes it, or for a new one that
    finds the queue full. -/
def leaver? (o : Outbound) : Use → Option (Envelope × Fate)
  | .send _ => if o.queue.length < o.capacity then none else o.queue.head?.map (·, .evicted)
  | .receive => o.queue.head?.map (·, .received)

/-- All that have left, in order. -/
def record (o : Outbound) : List Use → List (Envelope × Fate)
  | [] => []
  | u :: rest => (o.leaver? u).toList ++ (o.use u).record rest

def withFate (fate : Fate) (record : List (Envelope × Fate)) : List Envelope :=
  (record.filter (·.2 = fate)).map Prod.fst

theorem withFate_append (fate : Fate) (record more : List (Envelope × Fate)) :
    withFate fate (record ++ more) = withFate fate record ++ withFate fate more := by
  simp [withFate]

/-! ### One use -/

theorem capacity_use (o : Outbound) (u : Use) : (o.use u).capacity = o.capacity := by
  cases u with
  | send e =>
    simp only [use, send]
    split
    all_goals rfl
  | receive =>
    simp only [use, receive?]
    split
    all_goals rfl

/-- Whoever is in the queue or comes is there afterwards, or is the one who leaves. -/
theorem queue_use (o : Outbound) (u : Use) :
    (o.leaver? u).toList.map Prod.fst ++ (o.use u).queue = o.queue ++ sent [u] := by
  cases u with
  | send e =>
    by_cases hroom : o.queue.length < o.capacity
    · simp [leaver?, use, sent, send_of_room hroom, hroom]
    · rcases hqueue : o.queue with _ | ⟨oldest, rest⟩
      · simp [leaver?, use, sent, send_of_nil hqueue, hqueue]
      · rw [leaver?, if_neg hroom]
        simp [use, sent, send_of_full (Nat.not_lt.mp hroom) hqueue, hqueue]
  | receive =>
    rcases hqueue : o.queue with _ | ⟨oldest, rest⟩
    · simp [leaver?, use, receive?, sent, hqueue]
    · simp [leaver?, use, receive?, sent, hqueue]

theorem received_use (o : Outbound) (u : Use) :
    withFate .received (o.leaver? u).toList = (o.result? u).toList := by
  cases u with
  | send e =>
    rw [leaver?]
    split
    · rfl
    · cases o.queue <;> simp [withFate, result?]
  | receive => cases hqueue : o.queue <;> simp [withFate, leaver?, result?, receive?, hqueue]

theorem dropped_use (o : Outbound) (u : Use) :
    (o.use u).dropped = o.dropped + (withFate .evicted (o.leaver? u).toList).length := by
  cases u with
  | send e =>
    by_cases hroom : o.queue.length < o.capacity
    · simp [leaver?, use, withFate, send_of_room hroom, hroom]
    · rcases hqueue : o.queue with _ | ⟨oldest, rest⟩
      · simp [leaver?, use, withFate, send_of_nil hqueue, hqueue]
      · rw [leaver?, if_neg hroom]
        simp [use, withFate, send_of_full (Nat.not_lt.mp hroom) hqueue, hqueue]
  | receive => cases hqueue : o.queue <;> simp [leaver?, use, receive?, withFate, hqueue]

/-- A queue with room for one envelope at least never outgrows its capacity. -/
theorem length_use {o : Outbound} (hcapacity : 1 ≤ o.capacity)
    (hfits : o.queue.length ≤ o.capacity) (u : Use) : (o.use u).queue.length ≤ o.capacity := by
  have hqueue := congrArg List.length (o.queue_use u)
  simp only [List.length_append, List.length_map] at hqueue
  cases u with
  | receive =>
    have hnobody : (sent [.receive]).length = 0 := rfl
    omega
  | send e =>
    have hone : (sent [.send e]).length = 1 := rfl
    by_cases hroom : o.queue.length < o.capacity
    · omega
    · rcases hold : o.queue with _ | ⟨oldest, rest⟩
      · simp only [use, send_of_nil hold]
        exact hcapacity
      · have hleaves : (o.leaver? (.send e)).toList.length = 1 := by
          rw [leaver?, if_neg hroom, hold]
          rfl
        omega

/-! ### Histories -/

/-- What holds of a queue after a history: it is no longer than it may be, and it and the record
    are all that was queued before and sent since. -/
structure Accounts (o : Outbound) (uses : List Use) : Prop where
  capacity : (o.useAll uses).capacity = o.capacity
  bounded : (o.useAll uses).queue.length ≤ o.capacity
  order : (o.record uses).map Prod.fst ++ (o.useAll uses).queue = o.queue ++ sent uses
  received : withFate .received (o.record uses) = o.received uses
  dropped : (o.useAll uses).dropped = o.dropped + (withFate .evicted (o.record uses)).length

theorem accounts_after {o : Outbound} (hcapacity : 1 ≤ o.capacity)
    (hfits : o.queue.length ≤ o.capacity) (uses : List Use) : Accounts o uses := by
  induction uses generalizing o with
  | nil => exact ⟨rfl, hfits, by simp [record, sent, useAll], rfl, rfl⟩
  | cons u rest ih =>
    have hsame := o.capacity_use u
    have h := ih (o := o.use u) (hsame ▸ hcapacity) (hsame ▸ length_use hcapacity hfits u)
    constructor
    · exact h.capacity.trans hsame
    · rw [← hsame]
      exact h.bounded
    · have hsent : sent (u :: rest) = sent [u] ++ sent rest := List.filterMap_append (l := [u])
      calc (o.record (u :: rest)).map Prod.fst ++ (o.useAll (u :: rest)).queue
          = (o.leaver? u).toList.map Prod.fst ++
              (((o.use u).record rest).map Prod.fst ++ ((o.use u).useAll rest).queue) := by
            simp [record, useAll]
        _ = ((o.leaver? u).toList.map Prod.fst ++ (o.use u).queue) ++ sent rest := by
            rw [h.order, List.append_assoc]
        _ = o.queue ++ sent (u :: rest) := by
            rw [o.queue_use u, hsent, List.append_assoc]
    · rw [record, withFate_append, h.received, o.received_use u, Outbound.received]
    · rw [record, withFate_append, List.length_append, ← Nat.add_assoc, ← o.dropped_use u]
      exact h.dropped

theorem length_record (record : List (Envelope × Fate)) :
    record.length = (withFate .received record).length + (withFate .evicted record).length := by
  induction record with
  | nil => rfl
  | cons x rest ih =>
    obtain ⟨e, fate⟩ := x
    cases fate <;> simp [withFate] at ih ⊢ <;> omega

/-- Of the envelopes sent and of those received, evicted and queued there are as many. -/
theorem Accounts.balance {o : Outbound} {uses : List Use} (h : Accounts o uses) :
    o.queue.length + (sent uses).length + o.dropped =
      (o.received uses).length + (o.useAll uses).dropped + (o.useAll uses).queue.length := by
  have horder := congrArg List.length h.order
  simp only [List.length_append, List.length_map] at horder
  have hrecord := length_record (o.record uses)
  rw [h.received] at hrecord
  have hdropped := h.dropped
  omega

/-! ### Sends alone -/

/-- After sends alone the queue holds the latest envelopes, as many as there is room for. -/
theorem queue_sendAll {o : Outbound} (hcapacity : 1 ≤ o.capacity)
    (hfits : o.queue.length ≤ o.capacity) (es : List Envelope) :
    (o.sendAll es).queue = (o.queue ++ es).drop ((o.queue ++ es).length - o.capacity) := by
  induction es generalizing o with
  | nil =>
    have hnone : (o.queue ++ []).length - o.capacity = 0 := by
      rw [List.append_nil]
      omega
    rw [hnone]
    simp [sendAll]
  | cons e es ih =>
    have hsame : (o.send e).capacity = o.capacity := o.capacity_use (.send e)
    have hlater := ih (o := o.send e) (hsame ▸ hcapacity)
      (hsame ▸ length_use hcapacity hfits (.send e))
    rw [hsame] at hlater
    rw [show o.sendAll (e :: es) = (o.send e).sendAll es from rfl, hlater]
    by_cases hroom : o.queue.length < o.capacity
    · simp [send_of_room hroom]
    · -- the oldest one is gone already, and would not have been among the latest
      rcases hqueue : o.queue with _ | ⟨oldest, rest⟩
      · rw [hqueue] at hroom
        exact absurd hcapacity (by simpa using hroom)
      · rw [send_of_full (Nat.not_lt.mp hroom) hqueue]
        rw [hqueue] at hroom hfits
        simp only [List.length_cons] at hroom hfits
        have hcount : (oldest :: rest ++ e :: es).length - o.capacity =
            (rest ++ [e] ++ es).length - o.capacity + 1 := by
          simp only [List.length_append, List.length_cons, List.length_nil]
          omega
        rw [hcount]
        simp

/-- A send evicts nobody if there is room, and the oldest envelope if the queue is full. -/
theorem leaver?_send {o : Outbound} (hcapacity : 1 ≤ o.capacity)
    (hfits : o.queue.length ≤ o.capacity) (e : Envelope) :
    (o.queue.length < o.capacity ∧ o.leaver? (.send e) = none ∧
        (o.send e).queue = o.queue ++ [e] ∧ (o.send e).dropped = o.dropped) ∨
      ∃ oldest rest, o.queue.length = o.capacity ∧ o.queue = oldest :: rest ∧
        o.leaver? (.send e) = some (oldest, .evicted) ∧
        (o.send e).queue = rest ++ [e] ∧ (o.send e).dropped = o.dropped + 1 := by
  by_cases hfree : o.queue.length < o.capacity
  · rw [send_of_room hfree]
    refine .inl ⟨hfree, ?_, rfl, rfl⟩
    rw [leaver?, if_pos hfree]
  · have hfull : o.queue.length = o.capacity := by omega
    rcases hqueue : o.queue with _ | ⟨oldest, rest⟩
    · rw [hqueue] at hfull
      exact absurd hfull.symm (Nat.ne_of_gt hcapacity)
    · rw [send_of_full (Nat.not_lt.mp hfree) hqueue]
      refine .inr ⟨oldest, rest, hqueue ▸ hfull, rfl, ?_, rfl, rfl⟩
      rw [leaver?, if_neg hfree, hqueue]
      rfl

/-- **Every envelope is accounted for.**  After any history of a new queue it holds no more than its
    capacity, which is at least one.  What was sent is, in order, what has left the queue and what
    is in it; what has left was received, in this order, or evicted and counted; so the numbers
    agree.  The next send evicts nobody if there is room, and the oldest one if the queue is full.
    Sends alone leave the latest envelopes, as many as there is room for. -/
theorem queue_accounts_for_all (capacity : Nat) (uses : List Use) :
    let start := ofCapacity capacity
    let o := start.useAll uses
    let room := max capacity 1
    o.queue.length ≤ room ∧
      (start.record uses).map Prod.fst ++ o.queue = sent uses ∧
      withFate .received (start.record uses) = start.received uses ∧
      (withFate .evicted (start.record uses)).length = o.dropped ∧
      (sent uses).length = (start.received uses).length + o.dropped + o.queue.length ∧
      (∀ e, (o.queue.length < room ∧ o.leaver? (.send e) = none ∧
          (o.send e).queue = o.queue ++ [e] ∧ (o.send e).dropped = o.dropped) ∨
        ∃ oldest rest, o.queue.length = room ∧ o.queue = oldest :: rest ∧
          o.leaver? (.send e) = some (oldest, .evicted) ∧
          (o.send e).queue = rest ++ [e] ∧ (o.send e).dropped = o.dropped + 1) ∧
      ∀ es, (o.sendAll es).queue = (o.queue ++ es).drop ((o.queue ++ es).length - room) ∧
        (o.sendAll es).queue.length = min (o.queue.length + es.length) room := by
  intro start o room
  have hroom : 1 ≤ start.capacity := Nat.le_max_right capacity 1
  have h : Accounts start uses := accounts_after hroom (Nat.zero_le _) uses
  have hcapacity : o.capacity = room := h.capacity
  have hbounded : o.queue.length ≤ room := h.bounded
  refine ⟨hbounded, h.order, h.received, ?_, ?_, ?_, ?_⟩
  · have hdropped : o.dropped = 0 + _ := h.dropped
    rw [hdropped, Nat.zero_add]
  · have hbalance : 0 + (sent uses).length + 0 =
        (start.received uses).length + o.dropped + o.queue.length := h.balance
    omega
  · intro e
    rw [← hcapacity]
    exact leaver?_send (hcapacity ▸ hroom) (hcapacity ▸ hbounded) e
  · intro es
    have hlatest := queue_sendAll (hcapacity ▸ hroom) (hcapacity ▸ hbounded) es
    rw [hcapacity] at hlatest
    refine ⟨hlatest, ?_⟩
    rw [hlatest]
    simp only [List.length_drop, List.length_append]
    omega

example : ((ofCapacity 0).useAll
      [.send (Envelope.log "a" []), .send (Envelope.log "b" []), .receive]).dropped = 1 := by
  decide +kernel

end ClusterAgent.Outbound
