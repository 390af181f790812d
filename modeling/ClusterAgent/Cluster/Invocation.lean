/-
  ClusterAgent/Cluster/Invocation.lean
  ====================================
  **How the cluster tool is invoked.**

  Every call to the cluster is one run of the command-line tool.  This module says
  with which arguments it is started, what it gets to read, and what its exit means.
  A namespace is passed only where the kind has namespaces, so that the arguments
  never name one in vain.
-/
import ClusterAgent.Cluster.Call
import ClusterAgent.Json.Reader
import ClusterAgent.Json.Writer

namespace ClusterAgent.Cluster

/-- One run of the tool: its arguments and what it reads, if anything. -/
structure Invocation where
  args : List String
  stdin : Option (List UInt8)
deriving DecidableEq, Repr, Inhabited

/-- What a run of the tool leaves; a run that a signal ended has status −1. -/
structure Exit where
  status : Int
  stdout : List UInt8
  stderr : String
deriving DecidableEq, Repr, Inhabited

/-! ### Arguments -/

def namespaceArgs (kind : Kind) (ns : String) : List String :=
  if kind.namespaced ∧ ns ≠ "" then ["-n", ns] else []

def scopeArgs (kind : Kind) (ns : Option String) : List String :=
  if kind.namespaced then
    match ns.filter (· ≠ "") with
    | some ns => ["-n", ns]
    | none => ["-A"]
  else []

def containerArgs (t : Target) : List String :=
  match t.container.filter (· ≠ "") with
  | some c => ["-c", c]
  | none => []

def jsonArgs : List String := ["-o", "json"]

def Call.args : Call → List String
  | .list kind ns => ["get", kind.plural] ++ scopeArgs kind ns ++ jsonArgs
  | .get kind ns name => ["get", kind.plural, name] ++ namespaceArgs kind ns ++ jsonArgs
  | .delete kind ns name =>
    ["delete", kind.plural, name] ++ namespaceArgs kind ns ++ ["--wait=false"]
  | .replace _ _ => ["replace", "-f", "-"] ++ jsonArgs

/-- What the tool reads: the object that takes the place of another one. -/
def Call.stdin : Call → Option (List UInt8)
  | .replace _ object => some object.bytes
  | _ => none

def Call.invocation (c : Call) : Invocation := ⟨c.args, c.stdin⟩

/-- The arguments that report the changes of a kind in all namespaces. -/
def watchArgs (kind : Kind) : List String :=
  ["get", kind.plural] ++ (if kind.namespaced then ["-A"] else []) ++
    ["--watch", "--output-watch-events"] ++ jsonArgs

/-- The arguments that run a command in a container; after `--` come the words of the command. -/
def execArgs (t : Target) (command : List String) : List String :=
  ["exec", "-i", "-t", "-n", t.ns, t.name] ++ containerArgs t ++ ["--"] ++ command

/-- The arguments that follow the log of a container from so many lines back. -/
def logArgs (t : Target) (tail : Nat) : List String :=
  ["logs", "-f", "--tail=" ++ toString tail, "-n", t.ns, t.name] ++ containerArgs t

/-! ### What an exit means -/

/-- The output of a run that succeeded, or the failure that the tool reports. -/
def Exit.output (e : Exit) : Except Failure (List UInt8) :=
  if e.status = 0 then .ok e.stdout else .error (Failure.classify e.status e.stderr)

def Exit.document (e : Exit) : Except Failure Json :=
  match e.output with
  | .error f => .error f
  | .ok bytes =>
    match Json.read bytes with
    | .ok j => .ok j
    | .error f => .error (.json f)

/-- The objects of a list document; anything else is an empty list. -/
def listItems (document : Json) : List Json :=
  match document.field? "items" with
  | some (.array items) => items
  | _ => []

def Call.replyOf : (c : Call) → Exit → c.Reply
  | .list _ _, e => e.document.map listItems
  | .get _ _ _, e => e.document
  | .delete _ _ _, e => e.output.map fun _ => ()
  | .replace _ _, e => e.document

end ClusterAgent.Cluster
