/-
  ClusterAgent/Cluster/Memory.lean
  ================================
  **A cluster in memory.**

  Objects are kept by kind in the order of their arrival.  Each carries a
  version under `metadata.resourceVersion`; replacing an object raises it, and
  an object offered with another version than the stored one is out of date.
  Failures can be ordered in advance.
-/
import ClusterAgent.Cluster.Call

namespace ClusterAgent.Cluster

/-- The stored objects, and the failures to come. -/
structure Memory where
  /-- Every object with the plural of its kind, in order of arrival. -/
  objects : List (String × Json)
  /-- How many replacements will still fail with a conflict. -/
  conflicts : Nat
  listFailure : Option String
  shellFailure : Option String
  logFailure : Option String
  /-- The objects stored by replacements, in order. -/
  replaced : List Json
deriving Repr

namespace Memory

def empty : Memory := ⟨[], 0, none, none, none, []⟩

/-- Whether a stored entry is the object of that kind, namespace and name. -/
def holds (kind : Kind) (ns name : String) (entry : String × Json) : Bool :=
  entry.1 == kind.plural && isObject kind ns name entry.2

/-- Adds an object with its name, its namespace and the first version. -/
def insert (m : Memory) (kind : Kind) (ns name : String) (object : Json) : Memory :=
  let object := object.putAt ["metadata", "name"] (.string name)
  let object :=
    if kind.namespaced then object.putAt ["metadata", "namespace"] (.string ns) else object
  let object := object.putAt ["metadata", "resourceVersion"] (.string "1")
  { m with objects := m.objects ++ [(kind.plural, object)] }

def find? (m : Memory) (kind : Kind) (ns name : String) : Option Json :=
  (m.objects.find? (holds kind ns name)).map (·.2)

def missing (kind : Kind) (name : String) : Failure :=
  .notFound (kind.plural ++ " \"" ++ name ++ "\" not found")

/-- All objects of a kind, in one namespace or in all. -/
def list (m : Memory) (kind : Kind) (ns : Option String) : Except Failure (List Json) :=
  match m.listFailure with
  | some message => .error (.command 1 message)
  | none =>
    .ok (((m.objects.filter (·.1 == kind.plural)).map (·.2)).filter fun object =>
      match ns with
      | some ns => objectNamespace object == ns
      | none => true)

def get (m : Memory) (kind : Kind) (ns name : String) : Except Failure Json :=
  match m.find? kind ns name with
  | some object => .ok object
  | none => .error (missing kind name)

def delete (m : Memory) (kind : Kind) (ns name : String) : Except Failure Memory :=
  if m.objects.any (holds kind ns name) then
    .ok { m with objects := m.objects.filter fun entry => !holds kind ns name entry }
  else .error (missing kind name)

/-- The number that a version text stands for; a text that is no number stands for zero. -/
def versionNumber (version : String) : Nat :=
  let digits := match version.toList with
    | '+' :: rest => rest
    | cs => cs
  if digits ≠ [] ∧ digits.all Char.isDigit then
    let n := digits.foldl (fun acc c => acc * 10 + (c.toNat - 48)) 0
    if n < Nat.pow 2 64 then n else 0
  else 0

def version (object : Json) : String :=
  object.textAt ["metadata", "resourceVersion"]

/-- The object as it is stored when it takes the place of one with this version number.  Versions are
    words of 64 bits.  The sum never leaves them, because an object starts with version 1 and 2^64
    replacements of one object are out of reach. -/
def nextVersion (current : Nat) (object : Json) : Json :=
  object.putAt ["metadata", "resourceVersion"] (.string (toString (current + 1)))

/-- Puts an object in place of the first entry that `p` accepts. -/
def putFirst (p : String × Json → Bool) (object : Json) :
    List (String × Json) → List (String × Json)
  | [] => []
  | e :: rest => if p e then (e.1, object) :: rest else e :: putFirst p object rest

/-- Replaces the stored object of the offered one's name: first an ordered conflict, then a missing
    object, then an offer that is out of date is refused. -/
def replace (m : Memory) (kind : Kind) (object : Json) : Except Failure Json × Memory :=
  let name := objectName object
  if m.conflicts ≠ 0 then
    (.error (.conflict ("Operation cannot be fulfilled on " ++ kind.plural ++ " \"" ++ name ++
      "\": the object has been modified")), { m with conflicts := m.conflicts - 1 })
  else
    match m.find? kind (objectNamespace object) name with
    | none => (.error (missing kind name), m)
    | some stored =>
      let current := versionNumber (version stored)
      let offered := version object
      if offered ≠ "" ∧ offered ≠ toString current then
        (.error (.conflict (kind.plural ++ " \"" ++ name ++ "\" resourceVersion " ++ offered ++
          " is stale")), m)
      else
        let next := nextVersion current object
        (.ok next, { m with
          objects := putFirst (holds kind (objectNamespace object) name) next m.objects
          replaced := m.replaced ++ [next] })

def call (m : Memory) : (c : Call) → c.Reply × Memory
  | .list kind ns => (m.list kind ns, m)
  | .get kind ns name => (m.get kind ns name, m)
  | .delete kind ns name =>
    match m.delete kind ns name with
    | .ok m => (.ok (), m)
    | .error f => (.error f, m)
  | .replace kind object => m.replace kind object

end Memory

end ClusterAgent.Cluster
