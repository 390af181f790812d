/-
  ClusterAgent/Json/Record.lean
  =============================
  **Records read from JSON values.**

  A record is described by its fields: a name, how a value is decoded, and
  where in the record it belongs.  A record may be written as an object, in which
  other keys are ignored, or as a list of its fields in order.

  Request parameters are read *leniently*: when the value as a whole is no record,
  each field of an object that does not decode on its own is left out, and the
  others keep what they hold.
-/
import ClusterAgent.Json.Basic

namespace ClusterAgent.Json

/-- One field of a record of type `ρ`. -/
structure Field (ρ : Type) where
  name : String
  Value : Type
  decode : Json → Option Value
  get : ρ → Value
  set : Value → ρ → ρ

def Field.store {ρ : Type} (f : Field ρ) (v : Json) (r : ρ) : Option ρ :=
  (f.decode v).map (f.set · r)

/-- The fields of a record all of which have a default, kept in `zero`. -/
structure Schema (ρ : Type) where
  zero : ρ
  fields : List (Field ρ)

namespace Schema

variable {ρ : Type}

/-- Stores the fields that an object has; one that does not decode makes it fail. -/
def ofObject (object : List (String × Json)) : List (Field ρ) → ρ → Option ρ
  | [], r => some r
  | f :: fs, r =>
    match find? f.name object with
    | none => ofObject object fs r
    | some v => (f.store v r).bind (ofObject object fs)

/-- Stores the items of a list into the fields in order; there may be fewer items, never more. -/
def ofItems : List Json → List (Field ρ) → ρ → Option ρ
  | [], _, r => some r
  | _ :: _, [], _ => none
  | v :: vs, f :: fs, r => (f.store v r).bind (ofItems vs fs)

/-- The record that a value is, if every field that it gives decodes. -/
def decode (s : Schema ρ) : Json → Option ρ
  | .object fields => ofObject fields s.fields s.zero
  | .array items => ofItems items s.fields s.zero
  | _ => none

/-- Whether a field of an object decodes when it stands alone. -/
def accepts (s : Schema ρ) (field : String × Json) : Bool :=
  (s.decode (.object [field])).isSome

def decodeLenient (s : Schema ρ) (j : Json) : ρ :=
  match s.decode j with
  | some r => r
  | none =>
    match j with
    | .object fields => (s.decode (.object (fields.filter s.accepts))).getD s.zero
    | _ => s.zero

end Schema

/-! ### Values of fields -/

def asString : Json → Option String
  | .string s => some s
  | _ => none

def asBool : Json → Option Bool
  | .bool b => some b
  | _ => none

def asInt (low high : Int) : Json → Option Int
  | .number (.int n) => if low ≤ n ∧ n ≤ high then some n else none
  | _ => none

/-- A signed 64-bit integer. -/
def asInt64 : Json → Option Int :=
  asInt (-(Nat.pow 2 63 : Int)) (Nat.pow 2 63 - 1)

def asList {α : Type} (item : Json → Option α) : Json → Option (List α)
  | .array items => items.mapM item
  | _ => none

def asOptional {α : Type} (value : Json → Option α) : Json → Option (Option α)
  | .null => some none
  | j => (value j).map some

/-- One of several names, written as a string or as the only key of an object with a null value. -/
def asName {α : Type} (ofName : String → Option α) : Json → Option α
  | .string s => ofName s
  | .object [(s, .null)] => ofName s
  | _ => none

end ClusterAgent.Json
