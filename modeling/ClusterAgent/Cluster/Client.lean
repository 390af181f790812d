/-
  ClusterAgent/Cluster/Client.lean
  ================================
  **Whoever answers the calls of the handlers.**

  A client answers calls and says whether a shell or a log can be opened.  It may
  change with every answer.
-/
import ClusterAgent.Cluster.Memory

namespace ClusterAgent.Cluster

/-- A client with states of type `σ`. -/
structure Client (σ : Type) where
  call : σ → (c : Call) → c.Reply × σ
  /-- The failure that opening a shell meets, if any. -/
  openShell : σ → Target → Option Failure
  /-- The failure that opening a log meets, if any. -/
  openLog : σ → Target → Option Failure

def Memory.client : Client Memory where
  call := Memory.call
  openShell m _ := m.shellFailure.map .notFound
  openLog m _ := m.logFailure.map (.command 1)

end ClusterAgent.Cluster
