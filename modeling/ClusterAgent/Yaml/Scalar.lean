/-
  ClusterAgent/Yaml/Scalar.lean
  =============================
  **What a plain scalar stands for.**

  A scalar without quotes may be null, a truth value, an integer in one of four
  bases, or a floating-point number; anything else is text.  Digits after a leading
  zero are text.  An integer that fits no 64-bit word stands for nothing unless it is
  also beyond 128 bits, where it is a floating-point number.
-/
import ClusterAgent.Json.Basic
import ClusterAgent.Text.Digits
import ClusterAgent.Yaml.Fault

namespace ClusterAgent.Yaml.Scalar

open Decimal (Double)
open Text (digits?)

/-! ### Words -/

/-- The spellings of null; nothing at all is null too, but only without a tag. -/
def isNull (s : String) : Bool :=
  s == "null" || s == "Null" || s == "NULL" || s == "~"

def bool? (s : String) : Option Bool :=
  if s = "true" ∨ s = "True" ∨ s = "TRUE" then some true
  else if s = "false" ∨ s = "False" ∨ s = "FALSE" then some false
  else none

/-! ### Integers -/

def isPaddedDigits (cs : List Char) : Bool :=
  let cs := match cs with
    | '-' :: rest => rest
    | '+' :: rest => rest
    | _ => cs
  match cs with
  | '0' :: d :: rest => (d :: rest).all Char.isDigit
  | _ => false

def base? : Char → Option Nat
  | 'x' => some 16
  | 'o' => some 8
  | 'b' => some 2
  | _ => none

/-- The magnitude of a number in the base that its start names. -/
def magnitude? (cs : List Char) : Option Nat :=
  let inBase := match cs with
    | '0' :: b :: rest => (base? b).bind fun base => digits? base rest
    | _ => none
  inBase.orElse fun _ => if isPaddedDigits cs then none else digits? 10 cs

def integer? (cs : List Char) : Option Int :=
  match cs with
  | '+' :: rest => (magnitude? rest).map Int.ofNat
  | '-' :: rest => (magnitude? rest).map fun n => -(Int.ofNat n)
  | _ => (magnitude? cs).map Int.ofNat

/-- Whether an integer fits a 64-bit word, signed or unsigned. -/
def isWord (n : Int) : Bool :=
  decide (-(Nat.pow 2 63 : Int) ≤ n ∧ n < Nat.pow 2 64)

/-- Whether an integer fits a 128-bit word, signed or unsigned. -/
def isLongWord (n : Int) : Bool :=
  decide (-(Nat.pow 2 127 : Int) ≤ n ∧ n < Nat.pow 2 128)

/-! ### Floating-point numbers -/

/-- A floating-point number as a value: what is no finite number is null. -/
inductive Float where
  | finite (d : Double)
  | other
deriving DecidableEq, Repr

/-- The exponent that the rest of a number spells, if it spells one. -/
def exponent? : List Char → Option Int
  | [] => some 0
  | e :: rest =>
    if e = 'e' ∨ e = 'E' then
      match rest with
      | '+' :: ds => (digits? 10 ds).map Int.ofNat
      | '-' :: ds => (digits? 10 ds).map fun n => -(Int.ofNat n)
      | ds => (digits? 10 ds).map Int.ofNat
    else none

/-- The magnitude that digits, a point and an exponent spell, rounded once. -/
def decimal? (cs : List Char) : Option Double := do
  let whole := cs.takeWhile Char.isDigit
  let rest := cs.dropWhile Char.isDigit
  let (fraction, rest) := match rest with
    | '.' :: more => (more.takeWhile Char.isDigit, more.dropWhile Char.isDigit)
    | _ => ([], rest)
  if whole = [] ∧ fraction = [] then none
  else
    let e ← exponent? rest
    let n ← digits? 10 (whole ++ fraction)
    Double.ofScientific n (whole.length + fraction.length) (e - fraction.length)

def float? (s : String) : Option Float :=
  let cs := s.toList
  let (signed, body) := match cs with
    | '+' :: rest => (true, rest)
    | _ => (false, cs)
  if signed ∧ (body.head? = some '+' ∨ body.head? = some '-') then none
  else
    let word := String.ofList body
    if word = ".inf" ∨ word = ".Inf" ∨ word = ".INF" ∨
        s = "-.inf" ∨ s = "-.Inf" ∨ s = "-.INF" ∨
        s = ".nan" ∨ s = ".NaN" ∨ s = ".NAN" then some .other
    else
      match body with
      | '-' :: rest => (decimal? rest).map fun d => .finite (d.withSign true)
      | _ => (decimal? body).map .finite

def Float.toJson : Float → Json
  | .finite d => .number (.real d)
  | .other => .null

/-! ### Resolution -/

/-- The value of an integer, if JSON has one of that size. -/
def ofInteger (n : Int) : Except Fault Json :=
  if isWord n then .ok (.int n) else .error .numberTooLarge

def resolve (s : String) : Except Fault Json :=
  if s = "" ∨ isNull s then .ok .null
  else
    match bool? s with
    | some b => .ok (.bool b)
    | none =>
      match (integer? s.toList).filter isLongWord with
      | some n => ofInteger n
      | none =>
        if isPaddedDigits s.toList then .ok (.string s)
        else
          match float? s with
          | some f => .ok f.toJson
          | none => .ok (.string s)

/-- Whether a text would be read as something else if it were written plainly. -/
def isAmbiguous (s : String) : Bool :=
  match resolve s with
  | .ok (.string _) => isPaddedDigits s.toList
  | _ => true

/-! ### Tags -/

def coreTag (name : String) : List UInt8 :=
  ("tag:yaml.org,2002:" ++ name).toUTF8.toList

/-- What a scalar with a tag of a core type stands for; a tag of another type says that it is
    text. -/
def resolveTagged (tag : List UInt8) (s : String) : Except Fault Json :=
  if tag = coreTag "bool" then
    match bool? s with
    | some b => .ok (.bool b)
    | none => .error .tagMismatch
  else if tag = coreTag "int" then
    match (integer? s.toList).filter isLongWord with
    | some n => ofInteger n
    | none => .error .tagMismatch
  else if tag = coreTag "float" then
    match float? s with
    | some f => .ok f.toJson
    | none => .error .tagMismatch
  else if tag = coreTag "null" then
    if isNull s then .ok .null else .error .tagMismatch
  else .ok (.string s)

end ClusterAgent.Yaml.Scalar
