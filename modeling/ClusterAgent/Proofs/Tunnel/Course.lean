/-
  ClusterAgent/Proofs/Tunnel/Course.lean
  ======================================
  **The course of a tunnel, as others see it.**

  A tunnel dials, serves the connection until it is lost, and dials anew, until it is
  told to stop.  Others see this in the states that it publishes, in its counters and in
  the requests that it hands on.  `Happens` lists all that can happen in one event;
  `Trail` says which states a tunnel has published when it has come this far, and every
  event follows it.  `connection_runs_its_course` reads off what holds at every moment
  of every run.

  A state counts as published when others see a change: announcing the state that they
  see already is no step.
-/
import ClusterAgent.Proofs.Tunnel.Ledger
import Mathlib.Data.List.Chain

namespace ClusterAgent

/-- The round of a connection: it is dialed, established and lost. -/
inductive ConnectionState.Leads : ConnectionState → ConnectionState → Prop where
  | dialed : Leads .disconnected .connecting
  | established : Leads .connecting .connected
  | lost : Leads .connected .disconnected

namespace Tunnel

/-! ### What is looked at -/

/-- The request that an event brings, if it is a frame that holds one. -/
def Event.request? : Event → Option Request
  | .frame bytes => Request.ofFrame? bytes
  | _ => none

/-- The requests that were read, in order of arrival. -/
def requestsRead (events : List Event) : List Request :=
  events.filterMap Event.request?

/-- Whether a writer is over after the event: it lost an envelope or a heartbeat, or it noticed
    that it has to stop. -/
def Event.endsWriter : Event → Bool
  | .sent false | .heartbeat false | .writerNotices => true
  | _ => false

/-- The request that a reader waits to hand on, if any. -/
def Reader.inHand : Reader → List Request
  | .offering r => [r]
  | _ => []

def Phase.inHand : Phase → List Request
  | .connected c => c.reader.inHand
  | _ => []

def Writer.count : Writer → Nat
  | .done => 0
  | _ => 1

/-- How many writers there are that are not over. -/
def Phase.writers : Phase → Nat
  | .connected c => c.writer.count
  | _ => 0

/-- The dials in a sequence of states that came after a connection had been established. -/
def redials (states : List ConnectionState) : Nat :=
  (states.dropWhile (· ≠ .connected)).count .connecting

/-! ### What can happen -/

/-- A connection `c` goes on as `c'`: others see no change of state, and at most the next request
    is read or handed on, or the writer ends. -/
structure GoesOn (t u : Tunnel) (c c' : Connection) (event : Event) : Prop where
  phase : u.phase = .connected c'
  isShutdown : u.isShutdown = t.isShutdown
  published : u.published = t.published
  reconnects : u.stats.reconnects = t.stats.reconnects
  received : u.stats.received = t.stats.received + event.request?.toList.length
  requests : u.requests ++ c'.reader.inHand =
    t.requests ++ c.reader.inHand ++ event.request?.toList
  writer : c.writer.count = c'.writer.count + if event.endsWriter then 1 else 0
  cancelled : (c.reader = .done → c.isCancelled = true) → c'.reader = .done → c'.isCancelled = true

/-- All that can happen to a tunnel. -/
inductive Happens (t : Tunnel) : Event → Tunnel → Prop where
  | queue (e : Envelope) : Happens t (.queued e) { t with outbound := t.outbound.send e }
  | shutdown : Happens t .shutdown { t with isShutdown := true }
  | start (h : t.phase = .fresh) : Happens t .start t.dial
  | miss (h : t.phase = .dialing) : Happens t .dialFailed t
  | establish (h : t.phase = .dialing) :
    Happens t .dialed ({ t with given := t.given ++ [[]] }.withConnection Connection.fresh
      |>.publish .connected)
  | abandon (h : t.phase = .dialing) (told : t.isShutdown = true) : Happens t .dialAbandoned t.stop
  | goOn (c c' : Connection) (event : Event) (u : Tunnel) (h : t.phase = .connected c)
      (plain : event ≠ .dialed ∧ event ≠ .shutdown) (on : GoesOn t u c c' event) :
    Happens t event u
  | stop (c : Connection) (h : t.phase = .connected c) (ended : c.reader = .done ∧ c.writer = .done)
      (told : t.isShutdown = true) : Happens t .closed (t.publish .disconnected).stop
  | redial (c : Connection) (h : t.phase = .connected c)
      (ended : c.reader = .done ∧ c.writer = .done) (told : t.isShutdown = false) :
    Happens t .closed
      { t.publish .disconnected with
        stats := { t.stats with reconnects := t.stats.reconnects + 1 } }.dial

theorem phase_publish (t : Tunnel) (s : ConnectionState) : (t.publish s).phase = t.phase := by
  unfold publish
  split <;> rfl

theorem stats_publish (t : Tunnel) (s : ConnectionState) : (t.publish s).stats = t.stats := by
  unfold publish
  split <;> rfl

theorem isShutdown_publish (t : Tunnel) (s : ConnectionState) :
    (t.publish s).isShutdown = t.isShutdown := by
  unfold publish
  split <;> rfl

/-- An event that brings no request and leaves all that others see as it is. -/
theorem GoesOn.of_quiet {t u : Tunnel} {c c' : Connection} {event : Event}
    (hphase : u.phase = .connected c')
    (hseen : u.isShutdown = t.isShutdown ∧ u.published = t.published ∧
      u.stats.reconnects = t.stats.reconnects)
    (hread : u.stats.received = t.stats.received ∧ u.requests = t.requests)
    (hevent : event.request? = none) (hreader : c'.reader.inHand = c.reader.inHand)
    (hwriter : c.writer.count = c'.writer.count + if event.endsWriter then 1 else 0)
    (hcancelled : c'.reader = .done → c.reader = .done ∧ c.isCancelled = c'.isCancelled ∨
      c'.isCancelled = true) :
    GoesOn t u c c' event where
  phase := hphase
  isShutdown := hseen.1
  published := hseen.2.1
  reconnects := hseen.2.2
  received := by simp [hevent, hread.1]
  requests := by simp [hevent, hread.2, hreader]
  writer := hwriter
  cancelled := by
    intro h hdone
    rcases hcancelled hdone with ⟨hbefore, hsame⟩ | hnow
    · rw [← hsame]
      exact h hbefore
    · exact hnow

section Connected

variable {t u : Tunnel} {c : Connection}

theorem sent_happens (hphase : t.phase = .connected c) {isDelivered : Bool}
    (h : t.connectionStep? c (.sent isDelivered) = some u) : Happens t (.sent isDelivered) u := by
  simp only [connectionStep?] at h
  split at h
  · rename_i e hsending
    cases isDelivered with
    | true =>
      obtain rfl := Option.some.inj h
      refine .goOn c { c with writer := .idle } _ _ hphase (by simp) ?_
      refine .of_quiet rfl ⟨rfl, rfl, rfl⟩ ⟨rfl, rfl⟩ rfl rfl ?_ fun hdone => .inl ⟨hdone, rfl⟩
      simp [hsending, Writer.count, Event.endsWriter]
    | false =>
      obtain rfl := Option.some.inj h
      refine .goOn c { c with writer := .done, isCancelled := true } _ _ hphase (by simp) ?_
      refine .of_quiet rfl ⟨rfl, rfl, rfl⟩ ⟨rfl, rfl⟩ rfl rfl ?_ fun _ => .inr rfl
      simp [hsending, Writer.count, Event.endsWriter]
  · cases h

theorem heartbeat_happens (hphase : t.phase = .connected c) {isDelivered : Bool}
    (h : t.connectionStep? c (.heartbeat isDelivered) = some u) :
    Happens t (.heartbeat isDelivered) u := by
  simp only [connectionStep?] at h
  split at h
  · cases h
  · rename_i hbusy
    have hidle : c.writer = .idle := Classical.not_not.mp hbusy
    cases isDelivered with
    | true =>
      obtain rfl := Option.some.inj h
      refine .goOn c c _ _ hphase (by simp) ?_
      exact .of_quiet hphase ⟨rfl, rfl, rfl⟩ ⟨rfl, rfl⟩ rfl rfl rfl fun hdone => .inl ⟨hdone, rfl⟩
    | false =>
      obtain rfl := Option.some.inj h
      refine .goOn c { c with writer := .done, isCancelled := true } _ _ hphase (by simp) ?_
      refine .of_quiet rfl ⟨rfl, rfl, rfl⟩ ⟨rfl, rfl⟩ rfl rfl ?_ fun _ => .inr rfl
      simp [hidle, Writer.count, Event.endsWriter]

theorem frame_happens (hphase : t.phase = .connected c) {bytes : List UInt8}
    (h : t.connectionStep? c (.frame bytes) = some u) : Happens t (.frame bytes) u := by
  simp only [connectionStep?] at h
  split at h
  · cases h
  · rename_i hbusy
    have hreading : c.reader = .reading := Classical.not_not.mp hbusy
    split at h
    · rename_i hnone
      obtain rfl := Option.some.inj h
      refine .goOn c c _ _ hphase (by simp) ?_
      exact .of_quiet hphase ⟨rfl, rfl, rfl⟩ ⟨rfl, rfl⟩ hnone rfl rfl
        fun hdone => .inl ⟨hdone, rfl⟩
    · rename_i r hsome
      obtain rfl := Option.some.inj h
      have hbrings : (Event.frame bytes).request? = some r := hsome
      refine .goOn c { c with reader := .offering r } _ _ hphase (by simp) ?_
      refine ⟨rfl, rfl, rfl, rfl, ?_, ?_, rfl, by simp⟩
      · simp [hbrings, withConnection]
      · simp [hbrings, withConnection, hreading, Reader.inHand]

theorem closed_happens (hphase : t.phase = .connected c)
    (h : t.connectionStep? c .closed = some u) : Happens t .closed u := by
  simp only [connectionStep?] at h
  split at h
  · rename_i hended
    have hsame := isShutdown_publish t .disconnected
    cases htold : t.isShutdown with
    | true =>
      rw [if_pos (hsame.trans htold)] at h
      obtain rfl := Option.some.inj h
      exact .stop c hphase hended htold
    | false =>
      rw [if_neg (by simp [hsame, htold]), stats_publish] at h
      obtain rfl := Option.some.inj h
      exact .redial c hphase hended htold
  · cases h

/-- What happens to a connection. -/
theorem connectionStep_happens {event : Event} (hphase : t.phase = .connected c)
    (h : t.connectionStep? c event = some u) : Happens t event u := by
  cases event with
  | queued | shutdown | start | dialFailed | dialed | dialAbandoned => cases h
  | sent isDelivered => exact sent_happens hphase h
  | heartbeat isDelivered => exact heartbeat_happens hphase h
  | frame bytes => exact frame_happens hphase h
  | closed => exact closed_happens hphase h
  | taken =>
    simp only [connectionStep?] at h
    split at h
    · rename_i e outbound hidle _
      obtain rfl := Option.some.inj h
      refine .goOn c { c with writer := .sending e } _ _ hphase (by simp) ?_
      refine .of_quiet rfl ⟨rfl, rfl, rfl⟩ ⟨rfl, rfl⟩ rfl rfl ?_ fun hdone => .inl ⟨hdone, rfl⟩
      simp [hidle, Writer.count, Event.endsWriter]
    · cases h
  | offered =>
    simp only [connectionStep?] at h
    split at h
    · rename_i r hoffering
      obtain rfl := Option.some.inj h
      refine .goOn c { c with reader := .reading } _ _ hphase (by simp) ?_
      refine ⟨rfl, rfl, rfl, rfl, rfl, ?_, rfl, by simp⟩
      simp [Event.request?, withConnection, hoffering, Reader.inHand]
    · cases h
  | control =>
    simp only [connectionStep?] at h
    split at h
    · obtain rfl := Option.some.inj h
      refine .goOn c c _ _ hphase (by simp) ?_
      exact .of_quiet hphase ⟨rfl, rfl, rfl⟩ ⟨rfl, rfl⟩ rfl rfl rfl fun hdone => .inl ⟨hdone, rfl⟩
    · cases h
  | readEnded =>
    simp only [connectionStep?] at h
    split at h
    · rename_i hreading
      obtain rfl := Option.some.inj h
      refine .goOn c { c with reader := .done, isCancelled := true } _ _ hphase (by simp) ?_
      refine .of_quiet rfl ⟨rfl, rfl, rfl⟩ ⟨rfl, rfl⟩ rfl ?_ rfl fun _ => .inr rfl
      simp [hreading, Reader.inHand]
    · cases h
  | readerNotices =>
    simp only [connectionStep?] at h
    split at h
    · rename_i hreading
      obtain rfl := Option.some.inj h
      refine .goOn c { c with reader := .done, isCancelled := true } _ _ hphase (by simp) ?_
      refine .of_quiet rfl ⟨rfl, rfl, rfl⟩ ⟨rfl, rfl⟩ rfl ?_ rfl fun _ => .inr rfl
      simp [hreading.1, Reader.inHand]
    · cases h
  | writerNotices =>
    simp only [connectionStep?] at h
    split at h
    · rename_i hidle
      obtain rfl := Option.some.inj h
      refine .goOn c { c with writer := .done } _ _ hphase (by simp) ?_
      refine .of_quiet rfl ⟨rfl, rfl, rfl⟩ ⟨rfl, rfl⟩ rfl rfl ?_ fun hdone => .inl ⟨hdone, rfl⟩
      simp [hidle.1, Writer.count, Event.endsWriter]
    · cases h

end Connected

/-- **Nothing else happens to a tunnel.** -/
theorem step_happens {t u : Tunnel} {event : Event} (h : t.step? event = some u) :
    Happens t event u := by
  unfold step? at h
  split at h
  · obtain rfl := Option.some.inj h
    exact .queue _
  · obtain rfl := Option.some.inj h
    exact .shutdown
  · rename_i hphase
    obtain rfl := Option.some.inj h
    exact .start hphase
  · rename_i hphase
    obtain rfl := Option.some.inj h
    exact .miss hphase
  · rename_i hphase
    obtain rfl := Option.some.inj h
    exact .establish hphase
  · rename_i hphase
    split at h
    · rename_i htold
      obtain rfl := Option.some.inj h
      exact .abandon hphase htold
    · cases h
  · rename_i hphase
    exact connectionStep_happens hphase h
  · cases h

/-! ### The trail of states -/

/-- The states of so many connections that were established and lost. -/
def rounds (n : Nat) : List ConnectionState :=
  (List.replicate n [.connecting, .connected, .disconnected]).flatten

/-- The states that a tunnel has published when it is in this phase and has dialed anew `n` times
    after a connection.  Only one that was told to stop can be stopped. -/
inductive Trail (isShutdown : Bool) : Phase → Nat → List ConnectionState → Prop where
  | fresh : Trail isShutdown .fresh 0 [.disconnected]
  | dialing (n : Nat) : Trail isShutdown .dialing n (.disconnected :: rounds n ++ [.connecting])
  | connected (n : Nat) (c : Connection) :
    Trail isShutdown (.connected c) n (.disconnected :: rounds n ++ [.connecting, .connected])
  | abandoned (n : Nat) (told : isShutdown = true) :
    Trail isShutdown .stopped n (.disconnected :: rounds n ++ [.connecting, .disconnected])
  | lost (n : Nat) (told : isShutdown = true) :
    Trail isShutdown .stopped n
      (.disconnected :: rounds n ++ [.connecting, .connected, .disconnected])

theorem rounds_succ (n : Nat) :
    rounds (n + 1) = rounds n ++ [.connecting, .connected, .disconnected] := by
  simp [rounds, List.replicate_succ']

theorem rounds_succ_cons (n : Nat) :
    rounds (n + 1) = [.connecting, .connected, .disconnected] ++ rounds n := by
  simp [rounds, List.replicate_succ]

theorem count_connecting_rounds (n : Nat) : (rounds n).count .connecting = n := by
  induction n with
  | zero => rfl
  | succ n ih => simp [rounds_succ, ih]

theorem redials_rounds (n : Nat) {last : List ConnectionState}
    (hlast : last = [.connecting] ∨ last = [.connecting, .connected] ∨
      last = [.connecting, .disconnected] ∨ last = [.connecting, .connected, .disconnected]) :
    redials (.disconnected :: rounds n ++ last) = n := by
  cases n with
  | zero => rcases hlast with rfl | rfl | rfl | rfl <;> rfl
  | succ n =>
    have hcount : redials (.disconnected :: rounds (n + 1) ++ last) =
        n + last.count .connecting := by
      simp [redials, rounds_succ_cons, count_connecting_rounds]
    rw [hcount]
    rcases hlast with rfl | rfl | rfl | rfl <;> rfl

/-- Whole rounds lead back to where they started. -/
theorem isChain_rounds (n : Nat) {last : List ConnectionState}
    (h : (.disconnected :: last).IsChain ConnectionState.Leads) :
    (.disconnected :: rounds n ++ last).IsChain ConnectionState.Leads := by
  induction n with
  | zero => exact h
  | succ n ih =>
    rw [rounds_succ_cons]
    exact .cons_cons .dialed (.cons_cons .established (.cons_cons .lost ih))

/-- The state that others see in a phase. -/
def Phase.state : Phase → ConnectionState
  | .fresh | .stopped => .disconnected
  | .dialing => .connecting
  | .connected _ => .connected

theorem Trail.state {isShutdown : Bool} {t : Tunnel} {n : Nat}
    (h : Trail isShutdown t.phase n t.published) : t.state = t.phase.state := by
  unfold Tunnel.state
  generalize t.phase = phase at h ⊢
  generalize t.published = published at h ⊢
  cases h with
  | fresh => rfl
  | dialing | connected | abandoned | lost =>
    rw [List.getLast?_append]
    rfl

section Trail

variable {isShutdown : Bool} {c : Connection} {n : Nat} {published : List ConnectionState}

/-- Being told to stop publishes nothing. -/
theorem Trail.tell {phase : Phase} (h : Trail isShutdown phase n published) :
    Trail true phase n published := by
  cases h with
  | fresh => exact .fresh
  | dialing n => exact .dialing n
  | connected n c => exact .connected n c
  | abandoned n told => exact .abandoned n rfl
  | lost n told => exact .lost n rfl

theorem Trail.dial (h : Trail isShutdown .fresh n published) :
    Trail isShutdown .dialing n (published ++ [.connecting]) := by
  cases h
  exact .dialing 0

theorem Trail.establish (h : Trail isShutdown .dialing n published) (c : Connection) :
    Trail isShutdown (.connected c) n (published ++ [.connected]) := by
  cases h
  rw [List.append_assoc]
  exact .connected n c

theorem Trail.abandon (h : Trail isShutdown .dialing n published) (told : isShutdown = true) :
    Trail isShutdown .stopped n (published ++ [.disconnected]) := by
  cases h
  rw [List.append_assoc]
  exact .abandoned n told

theorem Trail.goOn (h : Trail isShutdown (.connected c) n published) (c' : Connection) :
    Trail isShutdown (.connected c') n published := by
  cases h
  exact .connected n c'

theorem Trail.lose (h : Trail isShutdown (.connected c) n published) (told : isShutdown = true) :
    Trail isShutdown .stopped n (published ++ [.disconnected]) := by
  cases h
  rw [List.append_assoc]
  exact .lost n told

theorem Trail.redial (h : Trail isShutdown (.connected c) n published) :
    Trail isShutdown .dialing (n + 1) (published ++ [.disconnected] ++ [.connecting]) := by
  cases h
  have hround : ConnectionState.disconnected :: rounds n ++ [.connecting, .connected] ++
      [.disconnected] = .disconnected :: rounds (n + 1) := by
    simp [rounds_succ]
  rw [hround]
  exact .dialing (n + 1)

end Trail

theorem Trail.redials {isShutdown : Bool} {phase : Phase} {n : Nat}
    {published : List ConnectionState} (h : Trail isShutdown phase n published) :
    redials published = n := by
  cases h with
  | fresh => rfl
  | dialing n => exact redials_rounds n (by simp)
  | connected n c => exact redials_rounds n (by simp)
  | abandoned n told => exact redials_rounds n (by simp)
  | lost n told => exact redials_rounds n (by simp)

/-- A tunnel goes round and round; only one that is stopped may have left the round, from a dial. -/
theorem Trail.isChain {isShutdown : Bool} {phase : Phase} {n : Nat}
    {published : List ConnectionState} (h : Trail isShutdown phase n published) :
    published.IsChain ConnectionState.Leads ∨
      phase = .stopped ∧ ∃ before : List ConnectionState,
        published = before ++ [.connecting, .disconnected] ∧
        List.IsChain ConnectionState.Leads (before ++ [.connecting]) := by
  have hdialed (n : Nat) : List.IsChain ConnectionState.Leads
      (.disconnected :: rounds n ++ [.connecting]) :=
    isChain_rounds n (.cons_cons .dialed (.singleton _))
  cases h with
  | fresh => exact .inl (.singleton _)
  | dialing n => exact .inl (hdialed n)
  | connected n c =>
    exact .inl (isChain_rounds n (.cons_cons .dialed (.cons_cons .established (.singleton _))))
  | abandoned n told => exact .inr ⟨rfl, .disconnected :: rounds n, rfl, hdialed n⟩
  | lost n told =>
    exact .inl (isChain_rounds n
      (.cons_cons .dialed (.cons_cons .established (.cons_cons .lost (.singleton _)))))

theorem publish_of_ne {t : Tunnel} {s : ConnectionState} (h : t.state ≠ s) :
    t.publish s = { t with published := t.published ++ [s] } :=
  if_neg h

theorem publish_of_eq {t : Tunnel} {s : ConnectionState} (h : t.state = s) : t.publish s = t :=
  if_pos h

theorem dial_of_disconnected {t : Tunnel} (h : t.state = .disconnected) :
    t.dial = { t with phase := .dialing, published := t.published ++ [.connecting] } := by
  have hne : ({ t with phase := .dialing } : Tunnel).state ≠ .connecting := by
    show t.state ≠ _
    simp [h]
  exact publish_of_ne hne

theorem stop_of_disconnected {t : Tunnel} (h : t.state = .disconnected) :
    t.stop = { t with phase := .stopped } :=
  publish_of_eq h

theorem stop_of_ne {t : Tunnel} (h : t.state ≠ .disconnected) :
    t.stop = { t with phase := .stopped, published := t.published ++ [.disconnected] } :=
  publish_of_ne h

theorem state_concat (t : Tunnel) (s : ConnectionState) :
    ({ t with published := t.published ++ [s] } : Tunnel).state = s := by
  simp [Tunnel.state]

/-! ### What every event keeps -/

/-- What holds of a tunnel after these events. -/
structure OnCourse (events : List Event) (t : Tunnel) : Prop where
  trail : Trail t.isShutdown t.phase t.stats.reconnects t.published
  told : t.isShutdown = true ↔ .shutdown ∈ events
  writers : events.count .dialed = events.countP Event.endsWriter + t.phase.writers
  received : t.stats.received = (requestsRead events).length
  requests : t.requests ++ t.phase.inHand = requestsRead events
  cancelled : ∀ c, t.phase = .connected c → c.reader = .done → c.isCancelled = true

theorem requestsRead_concat (events : List Event) (event : Event) :
    requestsRead (events ++ [event]) = requestsRead events ++ event.request?.toList := by
  unfold requestsRead
  rw [List.filterMap_append]
  cases hrequest : event.request? <;> simp [hrequest]

theorem onCourse_start (capacity : Nat) : OnCourse [] (ofCapacity capacity) where
  trail := .fresh
  told := by simp [ofCapacity]
  writers := rfl
  received := rfl
  requests := rfl
  cancelled _ hphase := by cases hphase

/-- An event that makes no writer and does not tell the tunnel to stop. -/
theorem OnCourse.carry {events : List Event} {event : Event} {t u : Tunnel}
    (h : OnCourse events t) (hplain : event ≠ .dialed ∧ event ≠ .shutdown)
    (htold : u.isShutdown = t.isShutdown)
    (htrail : Trail t.isShutdown u.phase u.stats.reconnects u.published)
    (hwriters : t.phase.writers = u.phase.writers + if event.endsWriter then 1 else 0)
    (hreceived : u.stats.received = t.stats.received + event.request?.toList.length)
    (hrequests : u.requests ++ u.phase.inHand =
      t.requests ++ t.phase.inHand ++ event.request?.toList)
    (hcancelled : ∀ c, u.phase = .connected c → c.reader = .done → c.isCancelled = true) :
    OnCourse (events ++ [event]) u where
  trail := htold ▸ htrail
  told := by simp [htold, h.told, Ne.symm hplain.2]
  writers := by
    rw [List.count_append, List.countP_append, h.writers, hwriters]
    simp [hplain.1]
    omega
  received := by simp [requestsRead_concat, hreceived, h.received]
  requests := by rw [requestsRead_concat, hrequests, h.requests]
  cancelled := hcancelled

/-- A connection that is over has no writer at work and no request in hand. -/
theorem over_inHand {t : Tunnel} {c : Connection} (hphase : t.phase = .connected c)
    (hover : c.reader = .done ∧ c.writer = .done) :
    t.phase.writers = 0 ∧ t.phase.inHand = [] := by
  rw [hphase]
  simp [Phase.writers, Phase.inHand, hover.1, hover.2, Writer.count, Reader.inHand]

theorem onCourse_step {events : List Event} {event : Event} {t u : Tunnel} (h : OnCourse events t)
    (hhappens : Happens t event u) : OnCourse (events ++ [event]) u := by
  have hstate := h.trail.state
  have htrail := h.trail
  cases hhappens with
  | queue e =>
    exact h.carry (by simp) rfl htrail rfl rfl (List.append_nil _).symm h.cancelled
  | shutdown =>
    refine ⟨htrail.tell, by simp, ?_, ?_, ?_, h.cancelled⟩
    · simpa [Event.endsWriter] using h.writers
    · simpa [requestsRead_concat, Event.request?] using h.received
    · simpa [requestsRead_concat, Event.request?] using h.requests
  | start hphase =>
    rw [hphase] at hstate htrail
    rw [dial_of_disconnected hstate]
    exact h.carry (by simp) rfl htrail.dial (by rw [hphase]; rfl) rfl (by simp [hphase]; rfl) nofun
  | miss hphase =>
    exact h.carry (by simp) rfl htrail rfl rfl (List.append_nil _).symm h.cancelled
  | establish hphase =>
    rw [hphase] at hstate htrail
    have hne : t.state ≠ .connected := by simp [hstate, Phase.state]
    have hestablished := publish_of_ne (t := { t with
      given := t.given ++ [[]]
      phase := .connected Connection.fresh }) hne
    simp only [withConnection]
    rw [hestablished]
    refine ⟨htrail.establish _, by simp [h.told], ?_, ?_, ?_, ?_⟩
    · have hwriters := h.writers
      rw [hphase] at hwriters
      simpa [Event.endsWriter, Phase.writers, Connection.fresh, Writer.count] using hwriters
    · simpa [requestsRead_concat, Event.request?] using h.received
    · have hrequests := h.requests
      rw [hphase] at hrequests
      simpa [requestsRead_concat, Event.request?, Phase.inHand, Connection.fresh,
        Reader.inHand] using hrequests
    · rintro c ⟨⟩ hdone
      cases hdone
  | abandon hphase told =>
    rw [hphase] at hstate htrail
    have hne : t.state ≠ .disconnected := by simp [hstate, Phase.state]
    rw [stop_of_ne hne]
    exact h.carry (by simp) rfl (htrail.abandon told) (by rw [hphase]; rfl) rfl
      (by simp [hphase]; rfl) nofun
  | goOn c c' _ _ hphase plain on =>
    rw [hphase] at htrail
    refine h.carry plain on.isShutdown ?_ ?_ on.received ?_ ?_
    · rw [on.phase, on.published, on.reconnects]
      exact htrail.goOn c'
    · rw [hphase, on.phase]
      exact on.writer
    · rw [hphase, on.phase]
      exact on.requests
    · intro c'' hc'' hdone
      cases on.phase.symm.trans hc''
      exact on.cancelled (h.cancelled c hphase) hdone
  | stop c hphase ended told =>
    rw [hphase] at hstate htrail
    have hne : t.state ≠ .disconnected := by simp [hstate, Phase.state]
    rw [publish_of_ne hne, stop_of_disconnected (state_concat t _)]
    obtain ⟨hwriter, hreader⟩ := over_inHand hphase ended
    refine h.carry (by simp) rfl (htrail.lose told) (by rw [hwriter]; rfl) rfl ?_ nofun
    rw [hreader]
    exact (List.append_nil (t.requests ++ [])).symm
  | redial c hphase ended told =>
    rw [hphase] at hstate htrail
    have hne : t.state ≠ .disconnected := by simp [hstate, Phase.state]
    rw [publish_of_ne hne, dial_of_disconnected]
    · obtain ⟨hwriter, hreader⟩ := over_inHand hphase ended
      refine h.carry (by simp) rfl htrail.redial (by rw [hwriter]; rfl) rfl ?_ nofun
      rw [hreader]
      exact (List.append_nil (t.requests ++ [])).symm
    · exact state_concat t .disconnected

theorem onCourse_run {capacity : Nat} {events : List Event} {t : Tunnel}
    (h : (ofCapacity capacity).run events = some t) : OnCourse events t := by
  induction events using List.reverseRecOn generalizing t with
  | nil =>
    obtain rfl := Option.some.inj h
    exact onCourse_start capacity
  | append_singleton events event ih =>
    obtain ⟨before, hbefore, hlast⟩ := run_concat h
    exact onCourse_step (ih hbefore) (step_happens hlast)

/-! ### The contract -/

/-- What others see of a tunnel after these events. -/
structure Course (events : List Event) (t : Tunnel) : Prop where
  /-- The states go round; only a tunnel that is stopped may have left the round from a dial. -/
  states : t.published.IsChain ConnectionState.Leads ∨
    t.phase = .stopped ∧ ∃ before : List ConnectionState,
      t.published = before ++ [.connecting, .disconnected] ∧
      List.IsChain ConnectionState.Leads (before ++ [.connecting])
  state : t.state = t.phase.state
  /-- A tunnel stops when it is told to, and not otherwise. -/
  stopped : t.phase = .stopped → t.state = .disconnected ∧ .shutdown ∈ events
  /-- Until it is stopped, something is left to do that needs neither an envelope nor a shutdown. -/
  goesOn : t.phase ≠ .stopped →
    ∃ event, event ≠ .shutdown ∧ (∀ e, event ≠ .queued e) ∧ (t.step? event).isSome
  /-- Of the writers that came with the connections all are over, or all but one. -/
  writers : events.count .dialed ≤ events.countP Event.endsWriter + 1
  /-- While the tunnel dials, none is left. -/
  dialing : t.phase = .dialing → events.count .dialed = events.countP Event.endsWriter
  reconnects : t.stats.reconnects = redials t.published
  received : t.stats.received = (requestsRead events).length
  /-- Every request is handed on once, in order of arrival; at most the last one has to wait. -/
  offered : t.requests ++ t.phase.inHand = requestsRead events
  /-- A frame that holds no request changes nothing. -/
  undecodable : ∀ bytes u, Request.ofFrame? bytes = none → t.step? (.frame bytes) = some u → u = t

theorem writers_le_one (phase : Phase) : phase.writers ≤ 1 := by
  cases phase with
  | connected c => cases hwriter : c.writer <;> simp [Phase.writers, Writer.count, hwriter]
  | fresh | dialing | stopped => exact Nat.zero_le 1

theorem Trail.stopped {isShutdown : Bool} {phase : Phase} {n : Nat}
    {published : List ConnectionState} (h : Trail isShutdown phase n published)
    (hstopped : phase = .stopped) : isShutdown = true := by
  cases h with
  | abandoned n told => exact told
  | lost n told => exact told
  | fresh | dialing | connected => cases hstopped

/-- A reader that is over has cancelled its connection, so that the writer gets to know. -/
theorem OnCourse.goesOn {events : List Event} {t : Tunnel} (h : OnCourse events t)
    (hgoing : t.phase ≠ .stopped) :
    ∃ event, event ≠ .shutdown ∧ (∀ e, event ≠ .queued e) ∧ (t.step? event).isSome := by
  cases hphase : t.phase with
  | stopped => exact absurd hphase hgoing
  | fresh => exact ⟨.start, by simp, by simp, by simp [step?, hphase]⟩
  | dialing => exact ⟨.dialed, by simp, by simp, by simp [step?, hphase]⟩
  | connected c =>
    cases hreader : c.reader with
    | reading =>
      exact ⟨.readEnded, by simp, by simp, by simp [step?, connectionStep?, hphase, hreader]⟩
    | offering r =>
      exact ⟨.offered, by simp, by simp, by simp [step?, connectionStep?, hphase, hreader]⟩
    | done =>
      have hcancelled := h.cancelled c hphase hreader
      cases hwriter : c.writer with
      | idle =>
        refine ⟨.writerNotices, by simp, by simp, ?_⟩
        simp [step?, connectionStep?, hphase, hwriter, hcancelled]
      | sending e =>
        exact ⟨.sent true, by simp, by simp, by simp [step?, connectionStep?, hphase, hwriter]⟩
      | done =>
        refine ⟨.closed, by simp, by simp, ?_⟩
        simp only [step?, connectionStep?, hphase, hreader, hwriter, and_self, if_true]
        split <;> rfl

/-- A frame that cannot be decoded leaves everything as it is. -/
theorem step_undecodable {t u : Tunnel} {bytes : List UInt8} (hbytes : Request.ofFrame? bytes = none)
    (h : t.step? (.frame bytes) = some u) : u = t := by
  cases hphase : t.phase with
  | fresh | dialing | stopped => simp [step?, hphase] at h
  | connected c =>
    simp only [step?, connectionStep?, hphase, hbytes] at h
    split at h
    · cases h
    · exact (Option.some.inj h).symm

/-- **A connection runs its course.**  After every run of a tunnel, whatever failed and whenever it
    was told to stop, the states it has published go round from one connection to the next, and only
    a shutdown leads out; there is never more than one writer and none while it dials; the dials
    that followed a connection are counted; and every request that was read is counted and handed on
    once, in order of arrival. -/
theorem connection_runs_its_course (capacity : Nat) (events : List Event) (t : Tunnel)
    (h : (ofCapacity capacity).run events = some t) : Course events t := by
  have hcourse := onCourse_run h
  have hwriters := hcourse.writers
  refine ⟨hcourse.trail.isChain, hcourse.trail.state, ?_, hcourse.goesOn, ?_, ?_,
    hcourse.trail.redials.symm, hcourse.received, hcourse.requests, fun _ _ => step_undecodable⟩
  · intro hstopped
    refine ⟨?_, hcourse.told.mp (hcourse.trail.stopped hstopped)⟩
    rw [hcourse.trail.state, hstopped]
    rfl
  · rw [hwriters]
    exact Nat.add_le_add_left (writers_le_one _) _
  · intro hdialing
    rw [hwriters, hdialing]
    rfl

/-- A dial fails before the first one succeeds; a request is handed on and another frame is not
    understood; then the writer loses an envelope.  The tunnel is told to stop while it dials. -/
theorem connection_runs_its_course_after_loss :
    let envelope := Envelope.log "a" []
    let events : List Event :=
      [.start, .dialFailed, .dialed, .frame "[\"pod\",\"list\",\"7\",null]".toUTF8.toList, .offered,
       .frame "no request".toUTF8.toList, .queued envelope, .taken, .sent false, .readerNotices,
       .closed, .shutdown, .dialAbandoned]
    ∃ t, (ofCapacity 2).run events = some t ∧ Course events t ∧
      t.published = [.disconnected, .connecting, .connected, .disconnected, .connecting,
        .disconnected] ∧
      t.stats = ⟨1, 0, 1, 1⟩ ∧ t.requests.map Request.action = ["list"] := by
  intro envelope events
  have hfacts : ((ofCapacity 2).run events).map
      (fun t => (t.published, t.stats, t.requests.map Request.action)) =
      some ([.disconnected, .connecting, .connected, .disconnected, .connecting, .disconnected],
        ⟨1, 0, 1, 1⟩, ["list"]) := by
    decide +kernel
  obtain ⟨t, ht, hseen⟩ := Option.map_eq_some_iff.mp hfacts
  have hcourse := connection_runs_its_course 2 events t ht
  simp only [Prod.mk.injEq] at hseen
  exact ⟨t, ht, hcourse, hseen.1, hseen.2.1, hseen.2.2⟩

end Tunnel

end ClusterAgent
