/-
  ClusterAgent/Cluster/Failure.lean
  =================================
  **Why a call to the cluster failed.**

  The cluster tool reports its failures as an exit status and a text.  The text
  says whether an object was missing or had changed in the meantime; only the latter,
  a conflict, is worth another try.
-/
import ClusterAgent.Json.Fault
import ClusterAgent.Text.Blank

namespace ClusterAgent.Cluster

/-- The class of an operating-system error. -/
inductive IoKind where
  | notFound
  | permissionDenied
  | invalidInput
  | other
deriving DecidableEq, Repr, Inhabited

def IoKind.name : IoKind → String
  | .notFound => "NotFound"
  | .permissionDenied => "PermissionDenied"
  | .invalidInput => "InvalidInput"
  | .other => "Other"

inductive Failure where
  | notFound (message : String)
  | conflict (message : String)
  /-- The cluster tool ended with this status and error text. -/
  | command (status : Int) (stderr : String)
  | io (kind : IoKind) (message : String)
  /-- The output of the cluster tool is no JSON document. -/
  | json (failure : Json.Failure)
deriving DecidableEq, Repr

namespace Failure

def message : Failure → String
  | .notFound m => m
  | .conflict m => m
  | .command status stderr => "command exited with status " ++ toString status ++ ": " ++ stderr
  | .io _ m => m
  | .json f => f.message

def isConflict : Failure → Bool
  | .conflict _ => true
  | _ => false

def noSuchProgram : Failure :=
  .io .notFound "No such file or directory (os error 2)"

def badArgument : Failure :=
  .io .invalidInput "nul byte found in provided data"

/-! ### Reading the error text of the cluster tool -/

def serverLead : List Char := "Error from server".toList

/-- The error text without its lead and without the two reasons that are told apart. -/
def reason (stderr : List Char) : List Char :=
  let message := Text.trim (Text.dropLeading serverLead (Text.trim stderr))
  Text.trim (((Text.after? "(NotFound):".toList message).orElse fun _ =>
    Text.after? "(Conflict):".toList message).getD message)

/-- The failure that an exit status and an error text tell. -/
def classify (status : Int) (stderr : String) : Failure :=
  let message := String.ofList (reason stderr.toList)
  if Text.mentions stderr "(NotFound)" || Text.mentions stderr "not found" then .notFound message
  else if Text.mentions stderr "(Conflict)" ||
      Text.mentions stderr "the object has been modified" then .conflict message
  else .command status (Text.trimmed stderr)

end Failure

end ClusterAgent.Cluster
