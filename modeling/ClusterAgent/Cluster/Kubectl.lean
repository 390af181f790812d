/-
  ClusterAgent/Cluster/Kubectl.lean
  =================================
  **The cluster client that runs `kubectl`.**

  The client adds the options that choose credentials and context to every run.
  Who starts the program is a `Runner`; a run may fail to start at all.
-/
import ClusterAgent.Cluster.Client
import ClusterAgent.Cluster.Following
import ClusterAgent.Watch.Decoder

namespace ClusterAgent.Cluster

/-- Whoever starts the program, with states of type `σ`. -/
structure Runner (σ : Type) where
  run : σ → Invocation → Except Failure Exit × σ

/-- How the program is told which cluster it talks to. -/
structure Kubectl where
  kubeconfig : Option String
  context : Option String
deriving DecidableEq, Repr, Inhabited

namespace Kubectl

/-- The options that come before all others. -/
def globalArgs (k : Kubectl) : List String :=
  (match k.kubeconfig with
    | some path => ["--kubeconfig", path]
    | none => []) ++
  match k.context with
  | some name => ["--context", name]
  | none => []

variable {σ : Type}

/-- Starts the program, unless an argument cannot be passed. -/
def start (k : Kubectl) (r : Runner σ) (s : σ) (i : Invocation) : Except Failure Exit × σ :=
  let args := k.globalArgs ++ i.args
  if args.any fun a => a.toList.any fun c => c == '\x00' then (.error Failure.badArgument, s)
  else r.run s { i with args }

def call (k : Kubectl) (r : Runner σ) (s : σ) (c : Call) : c.Reply × σ :=
  match k.start r s c.invocation with
  | (.ok e, s) => (c.replyOf e, s)
  | (.error f, s) => (.error f, s)

def logs (k : Kubectl) (r : Runner σ) (s : σ) (t : Target) (tail : Nat) :
    Except Failure (List UInt8) × σ :=
  match k.start r s ⟨logArgs t tail, none⟩ with
  | (.ok e, s) => (e.logStream, s)
  | (.error f, s) => (.error f, s)

/-- The client; its shells and logs start with their first output. -/
def client (k : Kubectl) (r : Runner σ) : Client σ where
  call := k.call r
  openShell _ _ := none
  openLog _ _ := none

/-! ### Watching -/

/-- The most bytes of a report that are read at once. -/
def watchReadLimit : Nat := 16384

/-- Cuts a report into the pieces in which it is read, at most so many. -/
def cut : (fuel : Nat) → List UInt8 → List (List UInt8)
  | 0, _ => []
  | fuel + 1, bytes =>
    if bytes = [] then [] else bytes.take watchReadLimit :: cut fuel (bytes.drop watchReadLimit)

def changesOf (e : Exit) : List (Change × Json) :=
  let pieces := cut (e.stdout.length + 1) e.stdout
  (Watch.Decoder.fresh.pushAll pieces).1.flatten.filterMap Watch.change?

/-- Watches a kind through so many runs, each started when the one before has ended, and reports all
    changes. -/
def watch (k : Kubectl) (r : Runner σ) (kind : Kind) : (runs : Nat) → σ → List (Change × Json) × σ
  | 0, s => ([], s)
  | runs + 1, s =>
    let (exit, s) := k.start r s ⟨watchArgs kind, none⟩
    let changes := match exit with
      | .ok e => changesOf e
      | .error _ => []
    let (more, s) := k.watch r kind runs s
    (changes ++ more, s)

end Kubectl

end ClusterAgent.Cluster
