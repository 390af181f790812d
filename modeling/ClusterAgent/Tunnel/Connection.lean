/-
  ClusterAgent/Tunnel/Connection.lean
  ===================================
  **The connection to the server, and its replacement.**

  One tunnel has at most one connection.  A connection has a reader, which hands
  requests on, and a writer, which takes envelopes from the outbound queue one at a
  time.  Whichever of them fails cancels the connection; when both are done the tunnel
  dials anew, or stops if it has been told to.  Everything that can happen is an
  `Event`, and `step?` says when it can happen and what it changes.
-/
import ClusterAgent.Outbound
import ClusterAgent.Protocol.Request

namespace ClusterAgent

/-- The state of the connection as others see it. -/
inductive ConnectionState where
  | disconnected
  | connecting
  | connected
deriving DecidableEq, Repr, Inhabited

def ConnectionState.name : ConnectionState → String
  | .disconnected => "Disconnected"
  | .connecting => "Connecting"
  | .connected => "Connected"

namespace Tunnel

/-- What the reader of a connection does. -/
inductive Reader where
  | reading
  /-- It waits for room to hand a request on. -/
  | offering (request : Request)
  | done
deriving DecidableEq, Repr, Inhabited

/-- What the writer of a connection does. -/
inductive Writer where
  | idle
  /-- It has taken an envelope and sends it. -/
  | sending (envelope : Envelope)
  | done
deriving DecidableEq, Repr, Inhabited

structure Connection where
  reader : Reader
  writer : Writer
  isCancelled : Bool
deriving DecidableEq, Repr, Inhabited

def Connection.fresh : Connection := ⟨.reading, .idle, false⟩

/-- How far the tunnel has come. -/
inductive Phase where
  | fresh
  | dialing
  | connected (connection : Connection)
  | stopped
deriving DecidableEq, Repr, Inhabited

structure Stats where
  reconnects : Nat
  sent : Nat
  received : Nat
  failedSends : Nat
deriving DecidableEq, Repr, Inhabited

end Tunnel

/-- The tunnel with everything that others can see of it. -/
structure Tunnel where
  phase : Tunnel.Phase
  isShutdown : Bool
  outbound : Outbound
  stats : Tunnel.Stats
  /-- The states it has published, in order. -/
  published : List ConnectionState
  /-- The envelopes given to each connection, in order; the last one may have been lost. -/
  given : List (List Envelope)
  /-- The requests handed on, in order. -/
  requests : List Request
deriving Repr

namespace Tunnel

/-- Something that happens to a tunnel. -/
inductive Event where
  | start
  | queued (envelope : Envelope)
  | dialFailed
  | dialed
  | taken
  /-- The envelope was sent, or it was lost. -/
  | sent (isDelivered : Bool)
  | heartbeat (isDelivered : Bool)
  /-- A frame that may hold a request arrives. -/
  | frame (bytes : List UInt8)
  /-- The request that was waiting is handed on. -/
  | offered
  /-- A frame arrives that can hold no request. -/
  | control
  | readEnded
  | readerNotices
  | writerNotices
  | closed
  | shutdown
  | dialAbandoned
deriving DecidableEq, Repr

def ofCapacity (capacity : Nat) : Tunnel where
  phase := .fresh
  isShutdown := false
  outbound := Outbound.ofCapacity capacity
  stats := ⟨0, 0, 0, 0⟩
  published := [.disconnected]
  given := []
  requests := []

def state (t : Tunnel) : ConnectionState := t.published.getLast?.getD .disconnected

/-- Publishes a state, unless it is the one that others see already. -/
def publish (t : Tunnel) (s : ConnectionState) : Tunnel :=
  if t.state = s then t else { t with published := t.published ++ [s] }

def dial (t : Tunnel) : Tunnel := { t with phase := .dialing }.publish .connecting

def stop (t : Tunnel) : Tunnel := { t with phase := .stopped }.publish .disconnected

def withConnection (t : Tunnel) (c : Connection) : Tunnel := { t with phase := .connected c }

def give (t : Tunnel) (e : Envelope) : Tunnel :=
  { t with given := t.given.dropLast ++ [t.given.getLast?.getD [] ++ [e]] }

/-- What happens to a connection; nothing if it cannot happen. -/
def connectionStep? (t : Tunnel) (c : Connection) : Event → Option Tunnel
  | .taken =>
    match c.writer, t.outbound.receive? with
    | .idle, (some e, outbound) =>
      some ({ t with outbound }.withConnection { c with writer := .sending e })
    | _, _ => none
  | .sent isDelivered =>
    match c.writer with
    | .sending e =>
      let t := t.give e
      if isDelivered then
        let stats := { t.stats with sent := t.stats.sent + 1 }
        some ({ t with stats }.withConnection { c with writer := .idle })
      else
        let stats := { t.stats with failedSends := t.stats.failedSends + 1 }
        some ({ t with stats }.withConnection { c with writer := .done, isCancelled := true })
    | _ => none
  | .heartbeat isDelivered =>
    if c.writer ≠ .idle then none
    else if isDelivered then some t
    else some (t.withConnection { c with writer := .done, isCancelled := true })
  | .frame bytes =>
    if c.reader ≠ .reading then none
    else
      match Request.ofFrame? bytes with
      | none => some t
      | some r =>
        let stats := { t.stats with received := t.stats.received + 1 }
        some ({ t with stats }.withConnection { c with reader := .offering r })
  | .offered =>
    match c.reader with
    | .offering r =>
      some ({ t with requests := t.requests ++ [r] }.withConnection { c with reader := .reading })
    | _ => none
  | .control => if c.reader = .reading then some t else none
  | .readEnded =>
    if c.reader = .reading then
      some (t.withConnection { c with reader := .done, isCancelled := true })
    else none
  | .readerNotices =>
    if c.reader = .reading ∧ (c.isCancelled ∨ t.isShutdown) then
      some (t.withConnection { c with reader := .done, isCancelled := true })
    else none
  | .writerNotices =>
    if c.writer = .idle ∧ (c.isCancelled ∨ t.isShutdown) then
      some (t.withConnection { c with writer := .done })
    else none
  | .closed =>
    if c.reader = .done ∧ c.writer = .done then
      let t := t.publish .disconnected
      if t.isShutdown then some t.stop
      else some { t with stats := { t.stats with reconnects := t.stats.reconnects + 1 } }.dial
    else none
  | _ => none

/-- What happens to a tunnel; nothing if it cannot happen. -/
def step? (t : Tunnel) (e : Event) : Option Tunnel :=
  match e, t.phase with
  | .queued envelope, _ => some { t with outbound := t.outbound.send envelope }
  | .shutdown, _ => some { t with isShutdown := true }
  | .start, .fresh => some t.dial
  | .dialFailed, .dialing => some t
  | .dialed, .dialing =>
    some ({ t with given := t.given ++ [[]] }.withConnection Connection.fresh |>.publish .connected)
  | .dialAbandoned, .dialing => if t.isShutdown then some t.stop else none
  | e, .connected c => t.connectionStep? c e
  | _, _ => none

/-- What a sequence of events comes to, if it can happen. -/
def run (t : Tunnel) (es : List Event) : Option Tunnel := es.foldlM step? t

end Tunnel

end ClusterAgent
