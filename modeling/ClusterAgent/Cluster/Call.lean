/-
  ClusterAgent/Cluster/Call.lean
  ==============================
  **What handlers ask of a cluster.**

  Four calls read and change objects; each has its own type of answer.  Objects
  are raw JSON values: their name and namespace stand under `metadata`.
-/
import ClusterAgent.Cluster.Failure
import ClusterAgent.Json.Basic
import ClusterAgent.Kind

namespace ClusterAgent.Cluster

/-- A call to the cluster. -/
inductive Call where
  /-- All objects of a kind, in one namespace or in all. -/
  | list (kind : Kind) (ns : Option String)
  /-- One object; the namespace counts only for namespaced kinds. -/
  | get (kind : Kind) (ns name : String)
  | delete (kind : Kind) (ns name : String)
  /-- Puts an object in place of the stored one of its name, unless it is out of date. -/
  | replace (kind : Kind) (object : Json)
deriving DecidableEq, Repr

def Call.Answer : Call → Type
  | .list .. => List Json
  | .get .. => Json
  | .delete .. => Unit
  | .replace .. => Json

abbrev Call.Reply (c : Call) : Type := Except Failure c.Answer

/-- One container of one pod; without a container the pod's own default. -/
structure Target where
  ns : String
  name : String
  container : Option String
deriving DecidableEq, Repr, Inhabited

/-- The size of a terminal. -/
structure TerminalSize where
  rows : Nat
  cols : Nat
deriving DecidableEq, Repr, Inhabited

/-- The size of a terminal that nobody asked to be different. -/
def TerminalSize.default : TerminalSize := ⟨24, 80⟩

/-! ### Raw objects -/

def objectName (object : Json) : String :=
  object.textAt ["metadata", "name"]

def objectNamespace (object : Json) : String :=
  object.textAt ["metadata", "namespace"]

/-- Whether an object of a kind is the one of that namespace and name. -/
def isObject (kind : Kind) (ns name : String) (object : Json) : Bool :=
  objectName object == name && (!kind.namespaced || objectNamespace object == ns)

end ClusterAgent.Cluster
