/-
  ClusterAgent/Handler/All.lean
  =============================
  **All handlers of the agent.**
-/
import ClusterAgent.Handler.Objects
import ClusterAgent.Handler.Sessions
import ClusterAgent.Registry
import ClusterAgent.Watch.Gate

namespace ClusterAgent.Handler

def setWatch : Handler := fun params =>
  match Watch.Gate.requested params with
  | .ok isOpen => .ask (.setGate isOpen) fun _ => .done Watch.Gate.accepted
  | .error refusal => .done refusal

def registerKind (r : Registry Handler) (kind : Kind) : Registry Handler :=
  kind.actions.foldl (fun r action =>
    match ofAction? kind action with
    | some handler => r.register kind.resource action.name handler
    | none => r) r

/-- The registry of the agent: the watch gate, the actions of every kind, and the pod sessions. -/
def all : Registry Handler :=
  let r := (Registry.empty.register "watch" Action.get.name setWatch)
  let r := Kind.all.foldl registerKind r
  let r := r.register "pod" Action.exec.name exec
  let r := r.register "pod" Action.stdin.name stdin
  let r := r.register "pod" Action.openLog.name openLog
  r.register "pod" Action.closeLog.name closeLog

end ClusterAgent.Handler
