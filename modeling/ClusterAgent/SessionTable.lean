/-
  ClusterAgent/SessionTable.lean
  ==============================
  **Live sessions by identifier.**

  Registering an identifier gives a guard; giving the guard up removes the entry.
  Every registration draws a fresh token, so a guard removes its own entry and
  never that of a later session with the same identifier.
-/
namespace ClusterAgent

/-- Sessions with values of type `α`. -/
structure SessionTable (α : Type u) where
  slots : List (String × Nat × α)
  next : Nat

/-- The ownership of one entry. -/
structure Guard where
  id : String
  token : Nat
deriving DecidableEq, Repr, Inhabited

/-- Why an identifier could not be registered: it is taken. -/
structure SessionExists where
  id : String
deriving DecidableEq, Repr

def SessionExists.message (e : SessionExists) : String :=
  "session " ++ e.id ++ " already exists"

namespace SessionTable

variable {α : Type u}

def empty : SessionTable α := ⟨[], 1⟩

def get? (t : SessionTable α) (id : String) : Option α :=
  (t.slots.find? (·.1 = id)).map (·.2.2)

def contains (t : SessionTable α) (id : String) : Bool :=
  (t.slots.find? (·.1 = id)).isSome

def size (t : SessionTable α) : Nat := t.slots.length

/-- Registers a value, unless the identifier is taken. -/
def register (t : SessionTable α) (id : String) (value : α) :
    Except SessionExists (Guard × SessionTable α) :=
  if t.contains id then .error ⟨id⟩
  else .ok (⟨id, t.next⟩, ⟨t.slots ++ [(id, t.next, value)], t.next + 1⟩)

/-- Gives a guard up: its own entry goes, if it is still there. -/
def release (t : SessionTable α) (g : Guard) : SessionTable α :=
  { t with slots := t.slots.filter fun s => !(s.1 == g.id && s.2.1 == g.token) }

end SessionTable

end ClusterAgent
