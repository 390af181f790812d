/-
  ClusterAgent/Toml/Scalar.lean
  =============================
  **Numbers, truth values and dates.**

  Everything that is written without quotes and brackets is one run of letters,
  digits, signs, points and colons; this module says which runs are values.
  Underscores stand only between digits, and a decimal number has no leading zeros.
-/
import ClusterAgent.Decimal.Double
import ClusterAgent.Text.Digits
import ClusterAgent.Toml.Value

namespace ClusterAgent.Toml.Scalar

open Decimal (Double)
open Text (digit? digits?)

def isScalar (c : Char) : Bool :=
  c.isAlphanum || c == '_' || c == '+' || c == '-' || c == '.' || c == ':'

/-! ### Integers -/

/-- The digits of a run in which underscores stand between digits only. -/
def plainDigits? (base : Nat) (cs : List Char) : Option (List Char) :=
  go false cs
where
  go (afterDigit : Bool) : List Char → Option (List Char)
    | [] => if afterDigit then some [] else none
    | c :: rest =>
      if c = '_' then if afterDigit then go false rest else none
      else if (digit? base c).isSome then (go true rest).map (c :: ·)
      else none

def decimal? (cs : List Char) : Option Nat := do
  let ds ← plainDigits? 10 cs
  match ds with
  | '0' :: _ :: _ => none
  | _ => digits? 10 ds

/-- Splits a sign off; the result is whether it is a minus. -/
def splitSign : List Char → Bool × List Char
  | '-' :: rest => (true, rest)
  | '+' :: rest => (false, rest)
  | cs => (false, cs)

def base? : Char → Option Nat
  | 'x' => some 16
  | 'o' => some 8
  | 'b' => some 2
  | _ => none

/-- Whether an integer fits a signed 64-bit word. -/
def fits (n : Int) : Bool := decide (-(Nat.pow 2 63 : Int) ≤ n ∧ n < Nat.pow 2 63)

/-- The integer that a run spells; a base other than ten goes without a sign. -/
def integer? (cs : List Char) : Option Int :=
  let based := match cs with
    | '0' :: b :: rest => (base? b).map fun base =>
      (plainDigits? base rest).bind fun ds => (digits? base ds).map Int.ofNat
    | _ => none
  let n := based.getD
    (let (negative, magnitude) := splitSign cs
     (decimal? magnitude).map fun n => if negative then -(Int.ofNat n) else Int.ofNat n)
  n.filter fits

/-! ### Numbers with a fraction or an exponent -/

def isExponentMark (c : Char) : Bool := c == 'e' || c == 'E'

/-- The value of an exponent with its mark, and zero for none. -/
def exponent? : List Char → Option Int
  | [] => some 0
  | _ :: rest => do
    let (negative, magnitude) := splitSign rest
    let n ← digits? 10 (← plainDigits? 10 magnitude)
    some (if negative then -(Int.ofNat n) else Int.ofNat n)

def fraction? : List Char → Option (List Char)
  | [] => some []
  | _ :: rest => plainDigits? 10 rest

/-- Whether a run spells a number with a fraction or an exponent.  A positive one must not be too
    big for a double. -/
def isFloat (cs : List Char) : Bool :=
  let (negative, magnitude) := splitSign cs
  let mantissa := magnitude.takeWhile (!isExponentMark ·)
  let whole := mantissa.takeWhile (· ≠ '.')
  let number := do
    let w ← decimal? whole
    let fraction ← fraction? (mantissa.drop whole.length)
    let e ← exponent? (magnitude.drop mantissa.length)
    let digits := w * Nat.pow 10 fraction.length + (digits? 10 fraction).getD 0
    some (Double.ofScientific digits (whole.length + fraction.length) (e - fraction.length))
  match number with
  | none => false
  | some double => decide (whole.length < magnitude.length) && (negative || double.isSome)

/-- Whether a run spells an infinity or no number at all. -/
def isSpecial (cs : List Char) : Bool :=
  let magnitude := String.ofList (splitSign cs).2
  magnitude == "inf" || magnitude == "nan"

/-! ### Dates and times -/

/-- The number that so many digits spell, and what follows them. -/
def fixed? (width : Nat) (cs : List Char) : Option (Nat × List Char) := do
  let ds := cs.take width
  if ds.length = width then some (← digits? 10 ds, cs.drop width) else none

def pair? (least greatest : Nat) (cs : List Char) : Option (Nat × List Char) :=
  (fixed? 2 cs).filter fun p => least ≤ p.1 ∧ p.1 ≤ greatest

def expect? (c : Char) : List Char → Option (List Char)
  | d :: rest => if d = c then some rest else none
  | [] => none

def daysIn (year month : Nat) : Nat :=
  if month = 2 then
    if year % 4 = 0 ∧ (year % 100 ≠ 0 ∨ year % 400 = 0) then 29 else 28
  else if month = 4 ∨ month = 6 ∨ month = 9 ∨ month = 11 then 30
  else 31

def date? (cs : List Char) : Option (List Char) := do
  let (year, cs) ← fixed? 4 cs
  let (month, cs) ← pair? 1 12 (← expect? '-' cs)
  let (_, cs) ← pair? 1 (daysIn year month) (← expect? '-' cs)
  some cs

def minutes? (cs : List Char) : Option (List Char) := do
  let (_, cs) ← pair? 0 23 cs
  let (_, cs) ← pair? 0 59 (← expect? ':' cs)
  some cs

/-- What follows a time of day; a leap second is allowed. -/
def time? (cs : List Char) : Option (List Char) := do
  let (_, cs) ← pair? 0 60 (← expect? ':' (← minutes? cs))
  match cs with
  | '.' :: rest =>
    if (rest.takeWhile Char.isDigit).isEmpty then none else some (rest.dropWhile Char.isDigit)
  | rest => some rest

def isOffset : List Char → Bool
  | [] => true
  | ['Z'] => true
  | ['z'] => true
  | '+' :: rest => minutes? rest == some []
  | '-' :: rest => minutes? rest == some []
  | _ => false

/-- Whether a run spells a date, a time of day, or both with a letter between them. -/
def isMoment (cs : List Char) : Bool :=
  match date? cs with
  | some [] => true
  | some (c :: rest) => (c == 'T' || c == 't') && ((time? rest).map isOffset).getD false
  | none => time? cs == some []

def isDate (cs : List Char) : Bool := date? cs == some []

/-- Whether a run spells a time of day, perhaps with a difference to universal time. -/
def isZonedTime (cs : List Char) : Bool := ((time? cs).map isOffset).getD false

/-! ### Any run -/

def value? (cs : List Char) : Option Toml :=
  let text := String.ofList cs
  if cs = "true".toList then some (.boolean true)
  else if cs = "false".toList then some (.boolean false)
  else if isMoment cs then some (.moment text)
  else if isFloat cs ∨ isSpecial cs then some (.float text)
  else (integer? cs).map .integer

/-- Reads a value that is written as a run, or as a date and a time with a space between them. -/
def read (cs : List Char) : Except Fault (Toml × List Char) :=
  let run := cs.takeWhile isScalar
  let rest := cs.dropWhile isScalar
  match rest with
  | ' ' :: c :: more =>
    if isDate run ∧ c.isDigit then
      let time := (c :: more).takeWhile isScalar
      let literal := String.ofList (run ++ ' ' :: time)
      if isZonedTime time then .ok (.moment literal, (c :: more).dropWhile isScalar)
      else .error (.badScalar literal)
    else finish run rest
  | _ => finish run rest
where
  /-- The value of a run and the text after it. -/
  finish (run rest : List Char) : Except Fault (Toml × List Char) :=
    match value? run with
    | some v => .ok (v, rest)
    | none =>
      match run, rest with
      | [], [] => .error .unexpectedEnd
      | [], c :: _ => .error (.unexpected c)
      | _, _ => .error (.badScalar (String.ofList run))

end ClusterAgent.Toml.Scalar
