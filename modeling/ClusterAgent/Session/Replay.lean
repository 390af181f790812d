/-
  ClusterAgent/Session/Replay.lean
  ================================
  **A stream of which the beginning was read ahead.**

  Whoever wants to know how a stream begins reads from it, and hands on a stream that
  gives these bytes again and then the rest.  It is read into buffers of any size.
-/
import ClusterAgent.Session.Stream

namespace ClusterAgent.Session

namespace Source

/-- The first piece that is not empty, cut to the size of a buffer, and the pieces after it. -/
def nextInto? (size : Nat) : List (List UInt8) → Option (List UInt8 × List (List UInt8))
  | [] => none
  | [] :: rest => nextInto? size rest
  | (b :: bs) :: rest =>
    let piece := b :: bs
    some (piece.take size, if piece.length ≤ size then rest else piece.drop size :: rest)

/-- Reads into a buffer of that size. -/
def readInto (size : Nat) (s : Source) : Read :=
  match nextInto? size s.pieces with
  | some (bytes, rest) => .bytes bytes { s with pieces := rest }
  | none =>
    match s.ending with
    | some e => .ended e
    | none => .nothing

end Source

/-- The bytes that were read ahead and have not been given again, and the rest of the stream. -/
structure Replay where
  ahead : List UInt8
  rest : Source
deriving DecidableEq, Repr, Inhabited

namespace Replay

/-- A stream that has ended before its first byte. -/
def ended : Replay := ⟨[], ⟨[], some .finished⟩⟩

inductive Given where
  | bytes (bytes : List UInt8) (left : Replay)
  | ended (ending : Ending)
  | nothing
deriving DecidableEq, Repr

/-- Reads into a buffer of that size; what was read ahead comes first. -/
def readInto (size : Nat) (s : Replay) : Given :=
  if s.ahead = [] then
    match s.rest.readInto size with
    | .bytes bytes rest => .bytes bytes ⟨[], rest⟩
    | .ended e => .ended e
    | .nothing => .nothing
  else .bytes (s.ahead.take size) { s with ahead := s.ahead.drop size }

/-- What several reads gave: the bytes of each, how the stream has ended, if it has, and what is
    left of it. -/
structure Course where
  pieces : List (List UInt8)
  ending : Option Ending
  left : Replay
deriving DecidableEq, Repr

/-- Reads into buffers of these sizes, until nothing is there. -/
def readAll : List Nat → Replay → Course
  | [], s => ⟨[], none, s⟩
  | size :: sizes, s =>
    match s.readInto size with
    | .bytes bytes left =>
      let c := readAll sizes left
      { c with pieces := bytes :: c.pieces }
    | .ended e => ⟨[], some e, s⟩
    | .nothing => ⟨[], none, s⟩

end Replay

end ClusterAgent.Session
