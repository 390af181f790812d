/-
  ClusterAgent/Toml/Table.lean
  ============================
  **Building a table entry by entry.**

  Nothing is ever defined twice.  A path of keys leads through tables, and through an
  array of tables to its last element; a table that a path needs is made.  A dotted
  key may only add to tables that dotted keys have made; a header may only name a
  table that is not there, or one that other headers have implied.
-/
import ClusterAgent.Toml.Value

namespace ClusterAgent.Toml

/-- Changes what stands under a key; `f` gets what is there. -/
def alter (key : String) (f : Option Toml → Except Fault Toml) : Entries → Except Fault Entries
  | [] => do
    let v ← f none
    return [(key, v)]
  | (k, old) :: rest =>
    if k = key then do
      let v ← f (some old)
      return (k, v) :: rest
    else do
      let rest ← alter key f rest
      return (k, old) :: rest

def add (key : String) (v : Toml) (entries : Entries) : Except Fault Entries :=
  alter key (fun
    | none => .ok v
    | some _ => .error (.duplicateKey key)) entries

/-- Changes the table at the end of a path, given how it came about.  Missing tables on the way get
    the shape `made`. -/
def within (made : Shape) : List String → (Shape → Entries → Except Fault Entries) →
    Shape → Entries → Except Fault Entries
  | [], change, shape, entries => change shape entries
  | key :: path, change, _, entries =>
    alter key (fun
      | none => do
        let inner ← within made path change made []
        return .table made inner
      | some (.table .inline _) => .error (.notATable key)
      | some (.table shape inner) =>
        if made = .dotted ∧ shape = .header then .error (.duplicateKey key)
        else do
          let inner ← within made path change shape inner
          return .table shape inner
      | some (.elements tables) => do
        let inner ← within made path change .header (tables.getLast?.getD [])
        return .elements (tables.dropLast ++ [inner])
      | some _ => .error (.notATable key)) entries

/-- Defines a dotted key: its last part is new, and it stands in a table that dotted keys have made,
    or in the table itself. -/
def define (path : List String) (key : String) (v : Toml) (shape : Shape) (entries : Entries) :
    Except Fault Entries :=
  within .dotted path (fun inner here =>
    if path ≠ [] ∧ inner ≠ .dotted then .error (.duplicateKey key) else add key v here)
    shape entries

def openTable (path : List String) (key : String) (root : Entries) : Except Fault Entries :=
  within .implied path (fun _ here =>
    alter key (fun
      | none => .ok (.table .header [])
      | some (.table .implied inner) => .ok (.table .header inner)
      | some _ => .error (.duplicateKey key)) here)
    .header root

/-- Opens a new element of the array of tables that a doubled header names. -/
def openElement (path : List String) (key : String) (root : Entries) : Except Fault Entries :=
  within .implied path (fun _ here =>
    alter key (fun
      | none => .ok (.elements [[]])
      | some (.elements tables) => .ok (.elements (tables ++ [[]]))
      | some _ => .error (.duplicateKey key)) here)
    .header root

end ClusterAgent.Toml
