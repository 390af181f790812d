/-
  ClusterAgent/Session/Stream.lean
  ================================
  **The two directions of a session's stream.**

  A `Source` is what the remote side has produced and nobody has read yet; a
  `Sink` is what has been written for the remote side and not been taken.  A sink
  has limited room, and a write into one whose reader is gone fails.
-/
namespace ClusterAgent.Session

/-! ### Reading -/

inductive Ending where
  | finished
  | failed (text : String)
deriving DecidableEq, Repr

/-- What waits to be read: pieces in order, and how the source ends after them, if it does. -/
structure Source where
  pieces : List (List UInt8)
  ending : Option Ending
deriving DecidableEq, Repr, Inhabited

inductive Read where
  | bytes (bytes : List UInt8) (rest : Source)
  | ended (ending : Ending)
  | nothing
deriving DecidableEq, Repr

namespace Source

/-- The most bytes that one read gives. -/
def readLimit : Nat := 8192

def fresh : Source := ⟨[], none⟩

/-- The first piece that is not empty, cut to what one read gives, and the pieces after it. -/
def next? : List (List UInt8) → Option (List UInt8 × List (List UInt8))
  | [] => none
  | [] :: rest => next? rest
  | (b :: bs) :: rest =>
    let piece := b :: bs
    some (piece.take readLimit,
      if piece.length ≤ readLimit then rest else piece.drop readLimit :: rest)

def read (s : Source) : Read :=
  match next? s.pieces with
  | some (bytes, rest) => .bytes bytes { s with pieces := rest }
  | none =>
    match s.ending with
    | some e => .ended e
    | none => .nothing

def isReady (s : Source) : Bool :=
  match s.read with
  | .nothing => false
  | _ => true

/-- Writes bytes for the reader; what was not read yet is read together with them. -/
def write (s : Source) (bytes : List UInt8) : Source :=
  { s with pieces := [s.pieces.flatten ++ bytes] }

def finish (s : Source) : Source :=
  { s with ending := some .finished }

/-- Makes reading fail after what has been written, unless the source has ended. -/
def fail (s : Source) (text : String) : Source :=
  { s with ending := s.ending.or (some (.failed text)) }

end Source

/-! ### Writing -/

/-- What has been written and not been taken, and whether anybody will take it. -/
structure Sink where
  waiting : List UInt8
  isOpen : Bool
deriving DecidableEq, Repr, Inhabited

namespace Sink

/-- The most bytes that may wait. -/
def room : Nat := 4096

def fresh : Sink := ⟨[], true⟩

inductive Write where
  /-- As many bytes as there was room for were written; these are left. -/
  | wrote (left : List UInt8) (sink : Sink)
  | broken
deriving DecidableEq, Repr

/-- What a write into a sink whose reader is gone fails with. -/
def brokenText : String := "broken pipe"

/-- Writes as many bytes as there is room for; writing nothing always succeeds. -/
def write (s : Sink) (bytes : List UInt8) : Write :=
  if bytes = [] then .wrote [] s
  else if s.isOpen then
    let n := room - s.waiting.length
    .wrote (bytes.drop n) { s with waiting := s.waiting ++ bytes.take n }
  else .broken

def take (s : Sink) : List UInt8 × Sink :=
  (s.waiting, { s with waiting := [] })

end Sink

end ClusterAgent.Session
