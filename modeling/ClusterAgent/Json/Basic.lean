/-
  ClusterAgent/Json/Basic.lean
  ============================
  **JSON values as the agent keeps them.**

  Request parameters, cluster objects and envelopes are JSON values.  A number
  is an integer when it was written as one and lies in the range of 64-bit
  words, signed or unsigned, and a double otherwise.  The fields of an object are
  listed in the order of their keys, each key once; `insert` keeps that order.
-/
import ClusterAgent.Decimal.Double

namespace ClusterAgent

inductive Json.Number where
  /-- An integer between `-2 ^ 63` and `2 ^ 64 - 1`. -/
  | int (value : Int)
  | real (value : Decimal.Double)
deriving DecidableEq, Repr, Inhabited

inductive Json where
  | null
  | bool (value : Bool)
  | number (value : Json.Number)
  | string (value : String)
  | array (items : List Json)
  | object (fields : List (String × Json))
deriving Repr, Inhabited

namespace Json

/-! ### Equality -/

mutual
def decideEq : (a b : Json) → Decidable (a = b)
  | .null, .null => isTrue rfl
  | .bool a, .bool b => decidable_of_iff (a = b) (by simp)
  | .number a, .number b => decidable_of_iff (a = b) (by simp)
  | .string a, .string b => decidable_of_iff (a = b) (by simp)
  | .array a, .array b =>
    have := decideItems a b
    decidable_of_iff (a = b) (by simp)
  | .object a, .object b =>
    have := decideFields a b
    decidable_of_iff (a = b) (by simp)
  | .null, .bool _ | .null, .number _ | .null, .string _ | .null, .array _ | .null, .object _
  | .bool _, .null | .bool _, .number _ | .bool _, .string _ | .bool _, .array _
  | .bool _, .object _
  | .number _, .null | .number _, .bool _ | .number _, .string _ | .number _, .array _
  | .number _, .object _
  | .string _, .null | .string _, .bool _ | .string _, .number _ | .string _, .array _
  | .string _, .object _
  | .array _, .null | .array _, .bool _ | .array _, .number _ | .array _, .string _
  | .array _, .object _
  | .object _, .null | .object _, .bool _ | .object _, .number _ | .object _, .string _
  | .object _, .array _ => isFalse (by simp)

def decideItems : (a b : List Json) → Decidable (a = b)
  | [], [] => isTrue rfl
  | [], _ :: _ => isFalse (by simp)
  | _ :: _, [] => isFalse (by simp)
  | a :: as, b :: bs =>
    have := decideEq a b
    have := decideItems as bs
    decidable_of_iff (a = b ∧ as = bs) (by simp)

def decideFields : (a b : List (String × Json)) → Decidable (a = b)
  | [], [] => isTrue rfl
  | [], _ :: _ => isFalse (by simp)
  | _ :: _, [] => isFalse (by simp)
  | (k, a) :: as, (l, b) :: bs =>
    have := decideEq a b
    have := decideFields as bs
    decidable_of_iff ((k = l ∧ a = b) ∧ as = bs) (by simp)
end

instance : DecidableEq Json := decideEq

/-! ### Fields of objects -/

def find? (key : String) : List (String × Json) → Option Json
  | [] => none
  | (k, v) :: rest => if k = key then some v else find? key rest

/-- Puts a value under a key: in place of the value there, or before the first greater key. -/
def insert (key : String) (value : Json) : List (String × Json) → List (String × Json)
  | [] => [(key, value)]
  | (k, v) :: rest =>
    if k = key then (key, value) :: rest
    else if key < k then (key, value) :: (k, v) :: rest
    else (k, v) :: insert key value rest

/-- The object with these fields; of two fields with one key the later one counts. -/
def ofFields (fields : List (String × Json)) : Json :=
  .object (fields.foldl (fun acc f => insert f.1 f.2 acc) [])

@[simp] theorem find?_insert_self (key : String) (value : Json) (fields : List (String × Json)) :
    find? key (insert key value fields) = some value := by
  induction fields with
  | nil => simp [insert, find?]
  | cons f rest ih =>
    obtain ⟨k, v⟩ := f
    unfold insert
    split
    · simp [find?]
    · split
      · simp [find?]
      · simp [find?, *]

theorem find?_insert_of_ne {key other : String} (h : other ≠ key) (value : Json)
    (fields : List (String × Json)) :
    find? other (insert key value fields) = find? other fields := by
  induction fields with
  | nil => simp [insert, find?, Ne.symm h]
  | cons f rest ih =>
    obtain ⟨k, v⟩ := f
    unfold insert
    split
    · rename_i hk
      subst hk
      simp [find?, Ne.symm h]
    · split
      · simp [find?, Ne.symm h]
      · simp [find?, ih]

/-! ### Looking inside -/

/-- An integer that fits a 64-bit word. -/
def int (n : Int) : Json :=
  .number (.int n)

def nat (n : Nat) : Json :=
  int n

/-- The value under a key, if this is an object that has the key. -/
def field? (j : Json) (key : String) : Option Json :=
  match j with
  | .object fields => find? key fields
  | _ => none

def at? (j : Json) : List String → Option Json
  | [] => some j
  | key :: path => (j.field? key).bind (·.at? path)

def text? : Json → Option String
  | .string s => some s
  | _ => none

/-- The text at the end of a path, blank if there is none. -/
def textAt (j : Json) (path : List String) : String :=
  ((j.at? path).bind text?).getD ""

def isObject : Json → Bool
  | .object _ => true
  | _ => false

/-- Stores a value at a path.  A missing step or a null becomes an object; any other value on the
    way has no place for a key and stays as it is. -/
def putAt (j : Json) (path : List String) (value : Json) : Json :=
  match path with
  | [] => value
  | key :: rest =>
    match j with
    | .object fields =>
      .object (insert key (((find? key fields).getD .null).putAt rest value) fields)
    | .null => .object [(key, Json.null.putAt rest value)]
    | other => other

end Json

end ClusterAgent
