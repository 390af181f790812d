/-
  ClusterAgent/Session/Log.lean
  =============================
  **The bridge of a followed log.**

  Every read leaves as one chunk.  A log that ends by itself or is stopped leaves
  nothing more; one that cannot be opened or read leaves the text of the failure.
-/
import ClusterAgent.Session.Stream

namespace ClusterAgent.Session.Log

/-- What a bridge does until nothing can be done: the chunks that leave, what is unread, and whether
    it is over. -/
structure Run where
  chunks : List (List UInt8)
  source : Source
  isOver : Bool

/-- Reads until nothing is there, at most so many times. -/
def run : Nat → Source → Run
  | 0, source => ⟨[], source, false⟩
  | fuel + 1, source =>
    match source.read with
    | .bytes bytes rest =>
      let r := run fuel rest
      { r with chunks := bytes :: r.chunks }
    | .ended .finished => ⟨[], source, true⟩
    | .ended (.failed text) => ⟨[text.toUTF8.toList], source, true⟩
    | .nothing => ⟨[], source, false⟩

/-- A bound for the reads: each piece of output and each cut of it. -/
def reads (source : Source) : Nat :=
  source.pieces.length + source.pieces.flatten.length / Source.readLimit + 2

/-- Reads until nothing is there; a bridge that was stopped reads nothing. -/
def pump (stopped : Bool) (source : Source) : Run :=
  if stopped then ⟨[], source, true⟩ else run (reads source) source

end ClusterAgent.Session.Log
