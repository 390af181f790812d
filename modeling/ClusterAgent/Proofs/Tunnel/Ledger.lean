/-
  ClusterAgent/Proofs/Tunnel/Ledger.lean
  ======================================
  **A ledger of all envelopes.**

  Envelopes have no identity of their own, so the ledger gives them one: it has a line
  for each envelope that was ever queued, in the order of queueing, and each line says
  where its envelope is now.  The tunnel does not know the ledger; `Ledger.after` keeps
  it by looking at what happens.

  What matters for the ledger is a part of the tunnel only, its `Books`, and `Books.Step`
  lists what can happen to them (`step_books`).  Everything the reader of a connection
  does leaves the books alone.
-/
import ClusterAgent.Tunnel.Connection

namespace ClusterAgent.Tunnel

/-! ### The books -/

/-- What of a tunnel concerns envelopes; there is a writer only while there is a connection. -/
structure Books where
  outbound : Outbound
  sent : Nat
  failed : Nat
  given : List (List Envelope)
  writer : Option Writer

def Phase.writer? : Phase → Option Writer
  | .connected c => some c.writer
  | _ => none

def books (t : Tunnel) : Books :=
  ⟨t.outbound, t.stats.sent, t.stats.failedSends, t.given, t.phase.writer?⟩

def Books.hand (b : Books) : List Envelope :=
  match b.writer with
  | some (.sending e) => [e]
  | _ => []

/-- Notes an envelope as given to the last connection. -/
def Books.give (given : List (List Envelope)) (e : Envelope) : List (List Envelope) :=
  given.dropLast ++ [given.getLast?.getD [] ++ [e]]

/-- Whether an event leaves queue, hand and sink alone. -/
def Event.IsOther : Event → Prop
  | .queued _ | .dialed | .taken | .sent _ => False
  | _ => True

/-- What can happen to the books. -/
inductive Books.Step : Books → Event → Books → Prop where
  | queue (b : Books) (e : Envelope) :
    Step b (.queued e) { b with outbound := b.outbound.send e }
  | dial (b : Books) (h : b.writer = none) :
    Step b .dialed { b with given := b.given ++ [[]], writer := some .idle }
  | take (b : Books) (e : Envelope) (rest : List Envelope) (h : b.writer = some .idle)
      (hqueue : b.outbound.queue = e :: rest) :
    Step b .taken
      { b with outbound := { b.outbound with queue := rest }, writer := some (.sending e) }
  | deliver (b : Books) (e : Envelope) (h : b.writer = some (.sending e)) :
    Step b (.sent true)
      { b with given := give b.given e, sent := b.sent + 1, writer := some .idle }
  | lose (b : Books) (e : Envelope) (h : b.writer = some (.sending e)) :
    Step b (.sent false)
      { b with given := give b.given e, failed := b.failed + 1, writer := some .done }
  | quit (b : Books) (event : Event) (h : event.IsOther) (hidle : b.writer = some .idle) :
    Step b event { b with writer := some .done }
  | close (b : Books) (event : Event) (h : event.IsOther)
      (hidle : ∀ e, b.writer ≠ some (.sending e)) : Step b event { b with writer := none }
  | other (b : Books) (event : Event) (h : event.IsOther) : Step b event b

theorem Books.Step.of_eq {b b' : Books} {event : Event} (h : event.IsOther) (heq : b' = b) :
    Step b event b' := by
  rw [heq]
  exact .other b event h

theorem books_publish (t : Tunnel) (s : ConnectionState) : (t.publish s).books = t.books := by
  unfold publish
  split
  · rfl
  · rfl

theorem books_dial (t : Tunnel) : t.dial.books = { t.books with writer := none } := by
  unfold dial
  rw [books_publish]
  rfl

theorem books_stop (t : Tunnel) : t.stop.books = { t.books with writer := none } := by
  unfold stop
  rw [books_publish]
  rfl

/-- A step on a connection is a step of the books. -/
theorem connectionStep_books {t u : Tunnel} {c : Connection} {event : Event}
    (hphase : t.phase = .connected c) (h : t.connectionStep? c event = some u) :
    Books.Step t.books event u.books := by
  have hwriter : t.books.writer = some c.writer := by
    simp [books, hphase, Phase.writer?]
  have hsame : { t.books with writer := some c.writer } = t.books := by
    rw [← hwriter]
  cases event with
  | queued => cases h
  | shutdown => cases h
  | start => cases h
  | dialFailed => cases h
  | dialed => cases h
  | dialAbandoned => cases h
  | taken =>
    simp only [connectionStep?, Outbound.receive?] at h
    split at h
    · rename_i e outbound hidle hreceive
      obtain rfl := Option.some.inj h
      cases hqueue : t.outbound.queue with
      | nil => simp [hqueue] at hreceive
      | cons e' rest =>
        rw [hqueue] at hreceive
        obtain ⟨rfl, rfl⟩ : e' = e ∧ { t.outbound with queue := rest } = outbound := by
          simpa using hreceive
        exact .take t.books e' rest (hidle ▸ hwriter) hqueue
    · cases h
  | sent isDelivered =>
    simp only [connectionStep?] at h
    split at h
    · rename_i e hsending
      rw [hsending] at hwriter
      cases isDelivered with
      | true =>
        obtain rfl := Option.some.inj h
        exact .deliver t.books e hwriter
      | false =>
        obtain rfl := Option.some.inj h
        exact .lose t.books e hwriter
    · cases h
  | heartbeat isDelivered =>
    simp only [connectionStep?] at h
    split at h
    · cases h
    · rename_i hidle
      have hidle : c.writer = .idle := Classical.not_not.mp hidle
      cases isDelivered with
      | true =>
        obtain rfl := Option.some.inj h
        exact .other t.books _ trivial
      | false =>
        obtain rfl := Option.some.inj h
        exact .quit t.books _ trivial (hidle ▸ hwriter)
  | frame bytes =>
    simp only [connectionStep?] at h
    split at h
    · cases h
    · split at h
      · obtain rfl := Option.some.inj h
        exact .other t.books _ trivial
      · obtain rfl := Option.some.inj h
        exact .of_eq trivial hsame
  | offered =>
    simp only [connectionStep?] at h
    split at h
    · obtain rfl := Option.some.inj h
      exact .of_eq trivial hsame
    · cases h
  | control =>
    simp only [connectionStep?] at h
    split at h
    · obtain rfl := Option.some.inj h
      exact .other t.books _ trivial
    · cases h
  | readEnded =>
    simp only [connectionStep?] at h
    split at h
    · obtain rfl := Option.some.inj h
      exact .of_eq trivial hsame
    · cases h
  | readerNotices =>
    simp only [connectionStep?] at h
    split at h
    · obtain rfl := Option.some.inj h
      exact .of_eq trivial hsame
    · cases h
  | writerNotices =>
    simp only [connectionStep?] at h
    split at h
    · rename_i hidle
      obtain rfl := Option.some.inj h
      exact .quit t.books _ trivial (hidle.1 ▸ hwriter)
    · cases h
  | closed =>
    simp only [connectionStep?] at h
    split at h
    · rename_i hdone
      have hquit : Books.Step t.books .closed { t.books with writer := none } := by
        refine .close t.books _ trivial ?_
        simp [hwriter, hdone.2]
      split at h
      · obtain rfl := Option.some.inj h
        rw [books_stop, books_publish]
        exact hquit
      · obtain rfl := Option.some.inj h
        rw [books_dial]
        show Books.Step t.books .closed { (t.publish .disconnected).books with writer := none }
        rw [books_publish]
        exact hquit
    · cases h

/-- **Whatever happens to a tunnel happens to its books as `Books.Step` says.** -/
theorem step_books {t u : Tunnel} {event : Event} (h : t.step? event = some u) :
    Books.Step t.books event u.books := by
  unfold step? at h
  split at h
  · obtain rfl := Option.some.inj h
    exact .queue t.books _
  · obtain rfl := Option.some.inj h
    exact .other t.books _ trivial
  · rename_i hphase
    obtain rfl := Option.some.inj h
    rw [books_dial]
    refine .close t.books _ trivial ?_
    simp [books, hphase, Phase.writer?]
  · obtain rfl := Option.some.inj h
    exact .other t.books _ trivial
  · rename_i hphase
    obtain rfl := Option.some.inj h
    rw [books_publish]
    exact .dial t.books (by simp [books, hphase, Phase.writer?])
  · rename_i hphase
    split at h
    · obtain rfl := Option.some.inj h
      rw [books_stop]
      refine .close t.books _ trivial ?_
      simp [books, hphase, Phase.writer?]
    · cases h
  · rename_i hphase
    exact connectionStep_books hphase h
  · cases h

/-! ### Runs -/

/-- The envelopes that are queued in the course of a run. -/
def sends (events : List Event) : List Envelope :=
  events.filterMap fun
    | .queued e => some e
    | _ => none

theorem run_cons {t u : Tunnel} {event : Event} {rest : List Event}
    (h : t.run (event :: rest) = some u) :
    ∃ v, t.step? event = some v ∧ v.run rest = some u := by
  unfold run at h
  rw [List.foldlM_cons] at h
  exact Option.bind_eq_some_iff.mp h

theorem run_concat {t u : Tunnel} {events : List Event} {event : Event}
    (h : t.run (events ++ [event]) = some u) :
    ∃ v, t.run events = some v ∧ v.step? event = some u := by
  unfold run at h
  rw [List.foldlM_append, Option.bind_eq_bind, Option.bind_eq_some_iff] at h
  obtain ⟨v, hv, hlast⟩ := h
  exact ⟨v, hv, by simpa using hlast⟩

theorem run_append {t u v : Tunnel} {events later : List Event} (ht : t.run events = some u)
    (hu : u.run later = some v) : t.run (events ++ later) = some v := by
  unfold run at ht hu ⊢
  rw [List.foldlM_append, ht]
  exact hu

/-! ### The ledger -/

/-- Where an envelope is. -/
inductive Place where
  | queued
  | evicted
  | inHand
  /-- It was given to a connection, and sent or lost there. -/
  | handed (connection : Nat) (isDelivered : Bool)
deriving DecidableEq, Repr

def Place.connection? : Place → Option Nat
  | .handed k _ => some k
  | _ => none

/-- Whether an envelope that is at the first place may later be at the second. -/
def Place.LeadsTo : Place → Place → Prop
  | .queued, _ => True
  | .inHand, p => p = .inHand ∨ ∃ k d, p = .handed k d
  | p, q => q = p

/-- All envelopes in the order in which they were queued, each with its place. -/
abbrev Ledger := List (Envelope × Place)

namespace Ledger

/-- Moves the first envelope that is at a place to another place. -/
def move (old new : Place) : Ledger → Ledger
  | [] => []
  | (e, p) :: rest => if p = old then (e, new) :: rest else (e, p) :: move old new rest

def inPlace (l : Ledger) (p : Place) : List Envelope :=
  (l.filter (·.2 = p)).map Prod.fst

/-- The lines of the envelopes that were given to a connection. -/
def handedTo (l : Ledger) (k : Nat) : Ledger :=
  l.filter (·.2.connection? = some k)

def after (l : Ledger) (b : Books) : Event → Ledger
  | .queued e =>
    (if b.outbound.capacity ≤ b.outbound.queue.length then l.move .queued .evicted else l) ++
      [(e, .queued)]
  | .taken => l.move .queued .inHand
  | .sent isDelivered => l.move .inHand (.handed (b.given.length - 1) isDelivered)
  | _ => l

def along (l : Ledger) (t : Tunnel) : List Event → Ledger
  | [] => l
  | event :: rest =>
    match t.step? event with
    | some u => (l.after t.books event).along u rest
    | none => l

theorem after_other (l : Ledger) (b : Books) {event : Event} (h : event.IsOther) :
    l.after b event = l := by
  cases event with
  | queued => exact h.elim
  | taken => exact h.elim
  | sent => exact h.elim
  | _ => rfl

theorem map_fst_move (l : Ledger) (old new : Place) :
    (l.move old new).map Prod.fst = l.map Prod.fst := by
  induction l with
  | nil => rfl
  | cons x rest ih =>
    obtain ⟨e, p⟩ := x
    unfold move
    split
    · rfl
    · simp [ih]

theorem move_of_absent {l : Ledger} {old : Place} (new : Place) (h : ∀ x ∈ l, x.2 ≠ old) :
    l.move old new = l := by
  induction l with
  | nil => rfl
  | cons x rest ih =>
    obtain ⟨e, p⟩ := x
    have hp : p ≠ old := h _ List.mem_cons_self
    unfold move
    rw [if_neg hp, ih fun x hx => h x (List.mem_cons_of_mem _ hx)]

/-- Only the first envelope at the place is moved. -/
theorem move_append_cons {l : Ledger} {old : Place} (new : Place) (h : ∀ x ∈ l, x.2 ≠ old)
    (e : Envelope) (rest : Ledger) :
    (l ++ (e, old) :: rest).move old new = l ++ (e, new) :: rest := by
  induction l with
  | nil => simp [move]
  | cons x l ih =>
    obtain ⟨e', p⟩ := x
    have hp : p ≠ old := h _ List.mem_cons_self
    rw [List.cons_append, move, if_neg hp, ih fun x hx => h x (List.mem_cons_of_mem _ hx)]
    rfl

/-! ### Envelopes only move on -/

/-- The lines of the first ledger are in the second, at a place to which theirs leads. -/
def Extends (later l : Ledger) : Prop :=
  ∀ (i : Nat) (e : Envelope) (p : Place), l[i]? = some (e, p) →
    ∃ q, later[i]? = some (e, q) ∧ p.LeadsTo q

end Ledger

theorem Place.LeadsTo.refl (p : Place) : p.LeadsTo p := by
  cases p with
  | queued => trivial
  | evicted => rfl
  | inHand => exact Or.inl rfl
  | handed => rfl

theorem Place.LeadsTo.trans {p q r : Place} (hpq : p.LeadsTo q) (hqr : q.LeadsTo r) :
    p.LeadsTo r := by
  cases p with
  | queued => trivial
  | evicted =>
    cases hpq
    exact hqr
  | handed k d =>
    cases hpq
    exact hqr
  | inHand =>
    rcases hpq with rfl | ⟨k, d, rfl⟩
    · exact hqr
    · exact Or.inr ⟨k, d, hqr⟩

namespace Ledger

theorem Extends.refl (l : Ledger) : Extends l l :=
  fun _ _ p h => ⟨p, h, .refl p⟩

theorem Extends.trans {l l' l'' : Ledger} (h : Extends l' l) (h' : Extends l'' l') :
    Extends l'' l := by
  intro i e p hi
  obtain ⟨q, hq, hpq⟩ := h i e p hi
  obtain ⟨r, hr, hqr⟩ := h' i e q hq
  exact ⟨r, hr, hpq.trans hqr⟩

theorem extends_append (l more : Ledger) : Extends (l ++ more) l := by
  intro i e p hi
  refine ⟨p, ?_, .refl p⟩
  rw [List.getElem?_append_left (List.getElem?_eq_some_iff.mp hi).1, hi]

theorem extends_move (l : Ledger) {old new : Place} (h : old.LeadsTo new) :
    Extends (l.move old new) l := by
  induction l with
  | nil => exact .refl []
  | cons x rest ih =>
    obtain ⟨e, p⟩ := x
    intro i e' p' hi
    unfold move
    cases i with
    | zero =>
      obtain ⟨rfl, rfl⟩ : e = e' ∧ p = p' := by simpa using hi
      by_cases hp : p = old
      · subst hp
        exact ⟨new, by simp, h⟩
      · exact ⟨p, by simp [hp], .refl p⟩
    | succ i =>
      have hi : rest[i]? = some (e', p') := by simpa using hi
      by_cases hp : p = old
      · exact ⟨p', by simp [hp, hi], .refl p'⟩
      · obtain ⟨q, hq, hpq⟩ := ih i e' p' hi
        exact ⟨q, by simp [hp, hq], hpq⟩

theorem extends_after (l : Ledger) (b : Books) (event : Event) : Extends (l.after b event) l := by
  cases event with
  | queued e =>
    simp only [after]
    split
    · have hmove : Extends (l.move .queued .evicted) l := extends_move l trivial
      exact hmove.trans (extends_append _ _)
    · exact extends_append _ _
  | taken => exact extends_move l trivial
  | sent isDelivered => exact extends_move l (Or.inr ⟨_, _, rfl⟩)
  | _ => exact .refl l

/-- Whatever happens, envelopes stay in the ledger and only move on. -/
theorem extends_along (l : Ledger) (t : Tunnel) (events : List Event) :
    Extends (l.along t events) l := by
  induction events generalizing l t with
  | nil => exact .refl l
  | cons event rest ih =>
    unfold along
    split
    · exact (extends_after l t.books event).trans (ih _ _)
    · exact .refl l

theorem along_append {t u : Tunnel} {events : List Event} (h : t.run events = some u) (l : Ledger)
    (later : List Event) : l.along t (events ++ later) = (l.along t events).along u later := by
  induction events generalizing l t with
  | nil =>
    obtain rfl := Option.some.inj h
    rfl
  | cons event rest ih =>
    obtain ⟨v, hv, hrest⟩ := run_cons h
    simp only [List.cons_append, along, hv]
    exact ih hrest _

/-- The ledger has a line for every envelope that was queued. -/
theorem map_fst_along {t u : Tunnel} {events : List Event} (h : t.run events = some u)
    (l : Ledger) : (l.along t events).map Prod.fst = l.map Prod.fst ++ sends events := by
  induction events generalizing l t with
  | nil => simp [along, sends]
  | cons event rest ih =>
    obtain ⟨v, hv, hrest⟩ := run_cons h
    simp only [along, hv]
    rw [ih hrest]
    cases event with
    | queued e =>
      have hmove : (if t.books.outbound.capacity ≤ t.books.outbound.queue.length then
          l.move .queued .evicted else l).map Prod.fst = l.map Prod.fst := by
        split
        · exact map_fst_move ..
        · rfl
      simp [after, sends, hmove]
    | taken => simp [after, sends, map_fst_move]
    | sent isDelivered => simp [after, sends, map_fst_move]
    | _ => rfl

end Ledger

end ClusterAgent.Tunnel
