/-
  ClusterAgent/Tunnel/Startup.lean
  ================================
  **What can go wrong when clocks and channels are made.**

  A clock with a period of zero cannot be made, nor one whose first tick lies beyond
  the end of time; nor can a channel for more requests than a word can count in
  eighths.
-/
import ClusterAgent.Config.Basic

namespace ClusterAgent.Tunnel

/-- A thing that cannot be made. -/
inductive Hazard where
  | zeroPeriod
  | tickBeyondTime
  | channelTooLarge
deriving DecidableEq, Repr, Inhabited

/-- The last second of time. -/
def lastSecond : Nat := Nat.pow 2 63 - 1

def channelLimit : Nat := (Nat.pow 2 64 - 1) / 8

/-- What stands against a clock that is made at second `now` and ticks after every `secs`. -/
def clockHazard? (now secs : Nat) : Option Hazard :=
  if secs = 0 then some .zeroPeriod
  else if lastSecond < now + secs then some .tickBeyondTime
  else none

/-- The capacity of the channel for requests: room for at least one. -/
def requestCapacity (t : Config.Transport) : Nat := max t.requestQueue 1

def channelHazard? (capacity : Nat) : Option Hazard :=
  if capacity = 0 ∨ channelLimit < capacity then some .channelTooLarge else none

/-- Everything that stands against an agent that starts at second `now`: its channel, its clock for
    dials, and its clock for heartbeats if it has any. -/
def hazards (now : Nat) (t : Config.Transport) : List Hazard :=
  (channelHazard? (requestCapacity t)).toList ++
    (clockHazard? now t.reconnectSecs).toList ++
    (t.heartbeat?.bind (clockHazard? now)).toList

end ClusterAgent.Tunnel
