/-
  ClusterAgent/Tunnel/Redial.lean
  ===============================
  **When the server is called again.**

  The first dial starts at once, every further one at a tick of a clock that was set
  when the first one started.  A tick that has passed while a dial was going on is
  made up for at once, and the ticks after it stay where they are.

  `dialStarts` lists the starts for dials that take so long.  A `Clocked` tunnel is a
  launched one with the clock that it carries through an outage: its dials start when
  that clock says so, and a dial that has not started can neither fail nor succeed.
-/
import ClusterAgent.Tunnel.Launch

namespace ClusterAgent.Tunnel

/-- The starts of further dials, where the dial before them started at `now` and the next tick is
    due at `due`; the dials take so long and fail. -/
def furtherStarts (interval due now : Nat) : List Nat → List Nat
  | [] => []
  | duration :: rest =>
    let next := max (now + duration) due
    next :: furtherStarts interval (due + interval) next rest

/-- The starts of all dials after a connection was lost at time `now`, where the dials take so long
    and fail. -/
def dialStarts (interval now : Nat) (durations : List Nat) : List Nat :=
  now :: furtherStarts interval (now + interval) now durations

/-! ### The clock of a tunnel -/

/-- The clock for dials, with those of the outage that it was set for. -/
structure DialClock where
  /-- When the dials start, in order: the last one goes on, or will at that time. -/
  starts : List Nat
  /-- The next tick. -/
  due : Nat
deriving DecidableEq, Repr, Inhabited

namespace DialClock

/-- The clock of a tunnel that has not dialed. -/
def unset : DialClock := ⟨[], 0⟩

/-- The clock that is made when a tunnel begins to dial; it does not wait for the first dial. -/
def set (interval now : Nat) : DialClock := ⟨[now], now + interval⟩

/-- Whether the last of the dials has started. -/
def isDialing (now : Nat) (k : DialClock) : Bool := k.starts.getLast?.any (· ≤ now)

/-- A dial has failed: the next one starts at the next tick, or at once if that has passed. -/
def fail (interval now : Nat) (k : DialClock) : DialClock :=
  ⟨k.starts ++ [max now k.due], k.due + interval⟩

/-- The clock when something has happened at second `now` and the tunnel is `next`; nothing if that
    is the end of a dial which has not started. -/
def after? (interval now : Nat) (k : DialClock) (next : Tunnel) : Event → Option DialClock
  | .start => some (set interval now)
  | .closed => some (if next.phase = .dialing then set interval now else k)
  | .dialFailed => if k.isDialing now then some (k.fail interval now) else none
  | .dialed => if k.isDialing now then some k else none
  | _ => some k

end DialClock

/-- A tunnel with the clock for its dials. -/
structure Clocked where
  tunnel : Tunnel
  clock : DialClock
deriving Repr

namespace Clocked

/-- What happens to a tunnel and its clock at a certain second. -/
def stepAt (c : Config.Transport) (s : Clocked) (e : Nat × Event) : Except Halt Clocked :=
  match Tunnel.stepAt c s.tunnel e with
  | .error halt => .error halt
  | .ok next =>
    match s.clock.after? c.reconnectSecs e.1 next e.2 with
    | none => .error .impossible
    | some clock => .ok ⟨next, clock⟩

/-- Makes the channel for requests and the tunnel, and lets these events happen, each at its second
    and no dial ending before it has started. -/
def launch (c : Config.Transport) (course : List (Nat × Event)) : Except Halt Clocked :=
  match channelHazard? (requestCapacity c) with
  | some h => .error (.panicked (.requestChannel h))
  | none => course.foldlM (stepAt c) ⟨Tunnel.ofCapacity c.outboundQueue, .unset⟩

end Clocked

end ClusterAgent.Tunnel
