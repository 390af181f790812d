/-
  ClusterAgent/Proofs/Outbound.lean
  =================================
  **What the outbound queue keeps.**

  Sending evicts from the front only, and counts what it evicts.  So after any number
  of sends the queue holds what it held and what was sent, in order, less as many of
  the oldest as the counter went up by: `sendAll_queue`.
-/
import ClusterAgent.Outbound

namespace ClusterAgent.Outbound

theorem send_of_room {o : Outbound} (h : o.queue.length < o.capacity) (e : Envelope) :
    o.send e = { o with queue := o.queue ++ [e] } := by
  unfold send
  rw [if_neg (Nat.not_le.mpr h)]

theorem send_of_nil {o : Outbound} (h : o.queue = []) (e : Envelope) :
    o.send e = { o with queue := [e] } := by
  unfold send
  split
  all_goals simp [h]

theorem send_of_full {o : Outbound} (h : o.capacity ≤ o.queue.length) {oldest : Envelope}
    {rest : List Envelope} (hqueue : o.queue = oldest :: rest) (e : Envelope) :
    o.send e = { o with queue := rest ++ [e], dropped := o.dropped + 1 } := by
  unfold send
  rw [if_pos h]
  simp [hqueue]

theorem send_queue (o : Outbound) (e : Envelope) :
    ∃ k, (o.send e).queue = (o.queue ++ [e]).drop k ∧ (o.send e).dropped = o.dropped + k ∧
      k ≤ o.queue.length := by
  unfold send
  split
  · refine ⟨(o.queue.take 1).length, ?_, rfl, ?_⟩
    · cases o.queue <;> simp
    · exact List.length_take_le' 1 o.queue
  · exact ⟨0, rfl, rfl, Nat.zero_le _⟩

theorem send_queue_ne_nil (o : Outbound) (e : Envelope) : (o.send e).queue ≠ [] := by
  obtain ⟨k, hqueue, -, hk⟩ := o.send_queue e
  rw [hqueue, ne_eq, List.drop_eq_nil_iff, List.length_append, List.length_singleton]
  omega

/-- What is queued after several sends is what was queued and what was sent, less the oldest, and
    the evicted ones are counted. -/
theorem sendAll_queue (o : Outbound) (es : List Envelope) :
    ∃ k, (o.sendAll es).queue = (o.queue ++ es).drop k ∧
      (o.sendAll es).dropped = o.dropped + k ∧ k ≤ (o.queue ++ es).length := by
  induction es generalizing o with
  | nil => exact ⟨0, by simp [sendAll], rfl, Nat.zero_le _⟩
  | cons e es ih =>
    obtain ⟨k, hqueue, hdropped, hk⟩ := o.send_queue e
    obtain ⟨l, hqueue', hdropped', hl⟩ := ih (o.send e)
    have hdrop : (o.queue ++ [e]).drop k ++ es = (o.queue ++ e :: es).drop k := by
      rw [← List.drop_append_of_le_length (by simp; omega)]
      simp
    refine ⟨k + l, ?_, ?_, ?_⟩
    · rw [show o.sendAll (e :: es) = (o.send e).sendAll es from rfl, hqueue', hqueue, hdrop,
        List.drop_drop]
    · rw [show o.sendAll (e :: es) = (o.send e).sendAll es from rfl, hdropped', hdropped,
        Nat.add_assoc]
    · rw [hqueue, hdrop] at hl
      simp only [List.length_drop, List.length_append, List.length_cons] at hl ⊢
      omega

/-- A queue that has never evicted anything has kept everything. -/
theorem sendAll_of_dropped_eq_zero {o : Outbound} {es : List Envelope}
    (h : (o.sendAll es).dropped = 0) :
    o.dropped = 0 ∧ (o.sendAll es).queue = o.queue ++ es := by
  obtain ⟨k, hqueue, hdropped, -⟩ := o.sendAll_queue es
  obtain ⟨hzero, rfl⟩ : o.dropped = 0 ∧ k = 0 := by omega
  exact ⟨hzero, hqueue⟩

end ClusterAgent.Outbound
