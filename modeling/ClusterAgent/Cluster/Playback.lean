/-
  ClusterAgent/Cluster/Playback.lean
  ==================================
  **Runs of the cluster tool with answers known in advance.**

  Each run takes the next prepared exit and is recorded.  A run for which nothing was
  prepared fails.
-/
import ClusterAgent.Cluster.Kubectl

namespace ClusterAgent.Cluster

/-- The exits to come and the runs so far. -/
structure Playback where
  isInstalled : Bool
  exits : List Exit
  runs : List Invocation
deriving Repr, Inhabited

namespace Playback

def unscripted : Exit := ⟨97, [], "unscripted call"⟩

def next (p : Playback) (i : Invocation) : Except Failure Exit × Playback :=
  if p.isInstalled then
    (.ok (p.exits.head?.getD unscripted), { p with exits := p.exits.tail, runs := p.runs ++ [i] })
  else (.error Failure.noSuchProgram, p)

def runner : Runner Playback := ⟨next⟩

def take (p : Playback) : List Invocation × Playback :=
  (p.runs, { p with runs := [] })

end Playback

end ClusterAgent.Cluster
