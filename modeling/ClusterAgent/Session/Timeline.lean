/-
  ClusterAgent/Session/Timeline.lean
  ==================================
  **A session whose remote side is known in advance.**

  A script says when the stream opens, what its output is and how long it rests
  between pieces.  The bridge of a shell or of a log turns it into a timeline: which
  chunk leaves when, and when the session is over.
-/
import ClusterAgent.Session.Log
import ClusterAgent.Session.Shell

namespace ClusterAgent.Session

/-- A piece of a scripted output. -/
inductive Cue where
  | output (bytes : List UInt8)
  | rest (ms : Nat)
  | failure (text : String)
deriving DecidableEq, Repr

/-- A scripted stream: when the attempt to open it is over, and either its output or the text of the
    failure. -/
structure Script where
  opensAt : Nat
  outcome : Except String (List Cue)

/-- What a session does in time. -/
structure Timeline where
  /-- The chunks with the times at which they leave. -/
  chunks : List (Nat × List UInt8)
  endsAt : Nat
deriving DecidableEq, Repr

namespace Script

/-- What becomes readable at which time, until the output ends. -/
def moments (time : Nat) : List Cue → List (Nat × Source)
  | [] => [(time, ⟨[], some .finished⟩)]
  | .output bytes :: cues => (time, ⟨[bytes], none⟩) :: moments time cues
  | .rest ms :: cues => moments (time + ms) cues
  | .failure text :: _ => [(time, ⟨[], some (.failed text)⟩)]

/-- The time of the last cue. -/
def lastTime (time : Nat) : List Cue → Nat
  | [] => time
  | .output _ :: cues => lastTime time cues
  | .rest ms :: cues => lastTime (time + ms) cues
  | .failure _ :: _ => time

/-- The timeline of a script, given what the bridge sends when a source becomes readable. -/
def play (bridge : Source → List (List UInt8)) (s : Script) : Timeline :=
  match s.outcome with
  | .error text => ⟨[(s.opensAt, text.toUTF8.toList)], s.opensAt⟩
  | .ok cues =>
    ⟨(moments s.opensAt cues).flatMap fun (time, source) => (bridge source).map (time, ·),
      lastTime s.opensAt cues⟩

/-- What the bridge of a shell sends when its output becomes readable. -/
def shellBridge (source : Source) : List (List UInt8) :=
  let r := Shell.pump Inbox.empty { Terminal.fresh with output := source }
  r.chunks ++ (r.ending.map Shell.lastChunk).toList

/-- What the bridge of a log sends when its output becomes readable. -/
def logBridge (source : Source) : List (List UInt8) :=
  (Log.pump false source).chunks

def shell (s : Script) : Timeline := s.play shellBridge

def log (s : Script) : Timeline := s.play logBridge

end Script

namespace Timeline

/-- Whether the session is there for a request at that time.  The request comes before anything that
    the session does at the same time, also before its start at time zero. -/
def isOpenAt (t : Timeline) (time : Nat) : Bool :=
  decide (0 < time ∧ time ≤ t.endsAt)

/-- The timeline of a session that is stopped at that time. -/
def stopAt (t : Timeline) (time : Nat) : Timeline :=
  if t.isOpenAt time then ⟨t.chunks.filter (·.1 < time), time⟩ else t

/-- The chunks as somebody sees them who starts to look at that time. -/
def seenFrom (t : Timeline) (time : Nat) : List (Nat × List UInt8) :=
  t.chunks.map fun (left, bytes) => (max left time, bytes)

end Timeline

end ClusterAgent.Session
