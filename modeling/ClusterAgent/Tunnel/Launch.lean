/-
  ClusterAgent/Tunnel/Launch.lean
  ===============================
  **A tunnel that is launched from a configuration, in time.**

  The channel for requests is made first.  Each time the tunnel begins to dial it makes a
  clock for further dials, and the writer of each connection makes one for heartbeats if
  there are any.  Where one of these cannot be made, the call that should make it panics
  and nothing goes on.
-/
import ClusterAgent.Tunnel.Connection
import ClusterAgent.Tunnel.Startup

namespace ClusterAgent.Tunnel

/-- A call that panics, and what stands against the thing that it should make. -/
inductive Panic where
  | requestChannel (hazard : Hazard)
  | dialClock (hazard : Hazard)
  | heartbeatClock (hazard : Hazard)
deriving DecidableEq, Repr, Inhabited

/-- Why a sequence of events does not go on. -/
inductive Halt where
  /-- The event cannot happen. -/
  | impossible
  | panicked (panic : Panic)
deriving DecidableEq, Repr, Inhabited

/-- The call that panics when something happens at second `now`. -/
def panic? (c : Config.Transport) (now : Nat) (t : Tunnel) : Event → Option Panic
  | .start => (clockHazard? now c.reconnectSecs).map .dialClock
  | .closed => if t.isShutdown then none else (clockHazard? now c.reconnectSecs).map .dialClock
  | .dialed => (c.heartbeat?.bind (clockHazard? now)).map .heartbeatClock
  | _ => none

/-- What happens to a tunnel at a certain second. -/
def stepAt (c : Config.Transport) (t : Tunnel) (e : Nat × Event) : Except Halt Tunnel :=
  match t.step? e.2 with
  | none => .error .impossible
  | some next =>
    match panic? c e.1 t e.2 with
    | some p => .error (.panicked p)
    | none => .ok next

/-- Makes the channel for requests and the tunnel, and lets these events happen, each at its
    second. -/
def launch (c : Config.Transport) (course : List (Nat × Event)) : Except Halt Tunnel :=
  match channelHazard? (requestCapacity c) with
  | some h => .error (.panicked (.requestChannel h))
  | none => course.foldlM (stepAt c) (Tunnel.ofCapacity c.outboundQueue)

end ClusterAgent.Tunnel
