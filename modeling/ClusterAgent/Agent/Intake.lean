/-
  ClusterAgent/Agent/Intake.lean
  ==============================
  **The way in for requests.**

  Requests reach the agent through an intake that is open until the agent is told to
  stop.  An open intake takes every request; a closed one takes none, while requests
  that were taken earlier are still served.
-/
import ClusterAgent.Agent.Schedule

namespace ClusterAgent.Agent

variable {σ : Type}

/-- An agent and whether it still takes requests. -/
structure Intake (σ : Type) where
  agent : Agent σ
  isOpen : Bool

namespace Intake

def offer (i : Intake σ) (r : Request) : Bool × Intake σ :=
  if i.isOpen then (true, { i with agent := i.agent.receive r }) else (false, i)

/-- Offers several requests in order and says which were refused. -/
def offerAll (i : Intake σ) : List Request → List Request × Intake σ
  | [] => ([], i)
  | r :: rest =>
    let (taken, i) := i.offer r
    let (refused, i) := i.offerAll rest
    (if taken then refused else r :: refused, i)

def close (i : Intake σ) : Intake σ := { i with isOpen := false }

/-- Lets the agent run until nothing more happens and takes what it sends, with the time since
    then. -/
def collect (i : Intake σ) : List (Nat × Envelope) × Intake σ :=
  let (sent, agent) := i.agent.trace
  (sent.map fun (time, e) => (time - i.agent.now, e), { i with agent })

end Intake

end ClusterAgent.Agent
