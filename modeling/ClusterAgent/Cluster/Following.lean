/-
  ClusterAgent/Cluster/Following.lean
  ===================================
  **Opening a log that the cluster tool follows.**

  The tool exits quickly with an error text if the pod or the container is unknown.  So
  the log counts as opened when the tool has written something, and this first read is
  given again to whoever follows the log.
-/
import ClusterAgent.Cluster.Invocation
import ClusterAgent.Session.Replay

namespace ClusterAgent.Cluster

/-- A run of the tool that follows a log: what its output gives, piece by piece, and the status and
    error text that it leaves. -/
structure LogRun where
  stdout : Session.Source
  status : Int
  stderr : String
deriving DecidableEq, Repr, Inhabited

/-- What the attempt to open a log has come to. -/
inductive Opening where
  /-- The tool has written nothing and may still write. -/
  | waiting
  | failed (failure : Failure)
  | opened (stream : Session.Replay)
deriving DecidableEq, Repr

/-- Reads once.  A run that ends before its first byte is a failure or an empty log. -/
def LogRun.opening (r : LogRun) : Opening :=
  match r.stdout.read with
  | .nothing => .waiting
  | .bytes first rest => .opened ⟨first, rest⟩
  | .ended (.failed text) => .failed (.io .other text)
  | .ended .finished =>
    match (Exit.mk r.status [] r.stderr).output with
    | .ok _ => .opened Session.Replay.ended
    | .error f => .failed f

/-- A run that has written all its output at once. -/
def Exit.logRun (e : Exit) : LogRun := ⟨⟨[e.stdout], some .finished⟩, e.status, e.stderr⟩

/-- What somebody gets who opens the log of a run and reads it to its end: each read gives a byte at
    least. -/
def Exit.logStream (e : Exit) : Except Failure (List UInt8) :=
  match e.logRun.opening with
  | .waiting => .ok []
  | .failed f => .error f
  | .opened stream =>
    let sizes := List.replicate (e.stdout.length + 1) Session.Source.readLimit
    .ok (stream.readAll sizes).pieces.flatten

end ClusterAgent.Cluster
