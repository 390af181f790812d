/-
  ClusterAgent/Yaml/Node.lean
  ===========================
  **A YAML document as a tree.**

  A node keeps its tag and its text as written; what they mean is decided later.
  Aliases are leaves.  An anchor gives its node a number, the count of different
  anchors before it, and of several nodes with one number the one that starts last
  is meant.
-/
import ClusterAgent.Yaml.Token

namespace ClusterAgent.Yaml

/-- A node of a document. -/
inductive Node where
  | scalar (tag : Option (List UInt8)) (style : Style) (text : List Char)
  | sequence (tag : Option (List UInt8)) (items : List Node)
  | mapping (tag : Option (List UInt8)) (entries : List (Node × Node))
  | alias (number : Nat)
deriving Repr, Inhabited

/-- A node that an anchor marks. -/
structure Anchored where
  number : Nat
  /-- How many anchored nodes started before. -/
  order : Nat
  node : Node
deriving Repr

/-- A document: its root, the nodes that anchors mark, and how many starts, ends and leaves it
    has. -/
structure Document where
  root : Node
  anchored : List Anchored
  size : Nat
deriving Repr

def Document.target? (d : Document) (number : Nat) : Option Node :=
  let same := d.anchored.filter (·.number == number)
  (same.foldl (fun best a =>
    match best with
    | some b => if b.order < a.order then some a else some b
    | none => some a) (none : Option Anchored)).map (·.node)

end ClusterAgent.Yaml
