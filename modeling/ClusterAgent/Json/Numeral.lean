/-
  ClusterAgent/Json/Numeral.lean
  ==============================
  **JSON numbers, one byte at a time.**

  A `Numeral` is a number of which some bytes have been read.  Its significand
  takes digits only while it fits a 64-bit word: later integer digits raise the
  power of ten instead, later fraction digits are skipped.  The number that is
  finally meant is the significand, rounded to a double, times or divided by a
  power of ten, rounded again; a plain integer that fits a 64-bit word stays
  an integer.
-/
import ClusterAgent.Json.Basic
import ClusterAgent.Json.Fault

namespace ClusterAgent.Json

/-- Where in a number the reader stands. -/
inductive Numeral.Phase where
  /-- After the minus sign: a digit must follow. -/
  | sign
  /-- After a leading zero: no further digit may follow. -/
  | zero
  | integer
  /-- Within integer digits after the significand is full. -/
  | longInteger
  /-- After the point: a digit must follow. -/
  | point
  | fraction
  /-- Within fraction digits after the significand is full. -/
  | fractionFull
  /-- After the exponent mark: a sign or a digit must follow. -/
  | mark
  /-- After the sign of the exponent: a digit must follow. -/
  | markSign
  | exponent
  /-- Within exponent digits after the exponent is too large to count. -/
  | exponentFull
deriving DecidableEq, Repr

/-- A number of which some bytes have been read. -/
structure Numeral where
  negative : Bool
  significand : Nat
  /-- The power of ten that the digits read so far give to the significand. -/
  scale : Int
  exponentNegative : Bool
  exponent : Nat
  phase : Numeral.Phase
deriving DecidableEq, Repr

namespace Numeral

/-- The greatest unsigned 64-bit word. -/
def wordMax : Nat := Nat.pow 2 64 - 1

/-- The greatest exponent that is counted. -/
def exponentMax : Nat := Nat.pow 2 31 - 1

def digit? (b : UInt8) : Option Nat :=
  if 0x30 ≤ b ∧ b ≤ 0x39 then some (b.toNat - 0x30) else none

/-- The number after its first byte, a minus sign or a digit. -/
def start? (b : UInt8) : Option Numeral :=
  if b = 0x2D then some ⟨true, 0, 0, false, 0, .sign⟩
  else
    match digit? b with
    | some 0 => some ⟨false, 0, 0, false, 0, .zero⟩
    | some d => some ⟨false, d, 0, false, 0, .integer⟩
    | none => none

/-- What one more byte does to a number. -/
inductive Step where
  | more (n : Numeral)
  /-- The number ended before the byte. -/
  | ended
  | stuck (fault : Fault)
deriving DecidableEq, Repr

/-- What may follow a complete mantissa: the exponent mark or the end of the number. -/
def afterDigits (n : Numeral) (b : UInt8) : Step :=
  if b = 0x65 ∨ b = 0x45 then .more { n with phase := .mark } else .ended

def afterInteger (n : Numeral) (b : UInt8) : Step :=
  if b = 0x2E then .more { n with phase := .point } else n.afterDigits b

/-- Whether the significand still fits a word with one more digit. -/
def fits (n : Numeral) (d : Nat) : Bool :=
  n.significand * 10 + d ≤ wordMax

def addFraction (n : Numeral) (d : Nat) : Numeral :=
  if n.fits d then
    { n with significand := n.significand * 10 + d, scale := n.scale - 1, phase := .fraction }
  else { n with phase := .fractionFull }

/-- Reads one more byte.  With `exact := false` the size of the number is of no interest. -/
def step (exact : Bool) (n : Numeral) (b : UInt8) : Step :=
  match n.phase, digit? b with
  | .sign, some 0 => .more { n with phase := .zero }
  | .sign, some d => .more { n with significand := d, phase := .integer }
  | .sign, none => .stuck .invalidNumber
  | .zero, some _ => .stuck .invalidNumber
  | .zero, none => n.afterInteger b
  | .integer, some d =>
    if n.fits d then .more { n with significand := n.significand * 10 + d }
    else .more { n with scale := n.scale + 1, phase := .longInteger }
  | .integer, none => n.afterInteger b
  | .longInteger, some _ => .more { n with scale := n.scale + 1 }
  | .longInteger, none => n.afterInteger b
  | .point, some d => .more (n.addFraction d)
  | .point, none => .stuck .invalidNumber
  | .fraction, some d => .more (n.addFraction d)
  | .fraction, none => n.afterDigits b
  | .fractionFull, some _ => .more n
  | .fractionFull, none => n.afterDigits b
  | .mark, some d => .more { n with exponent := d, phase := .exponent }
  | .mark, none =>
    if b = 0x2B then .more { n with phase := .markSign }
    else if b = 0x2D then .more { n with exponentNegative := true, phase := .markSign }
    else .stuck .invalidNumber
  | .markSign, some d => .more { n with exponent := d, phase := .exponent }
  | .markSign, none => .stuck .invalidNumber
  | .exponent, some d =>
    if n.exponent * 10 + d ≤ exponentMax then .more { n with exponent := n.exponent * 10 + d }
    else if exact ∧ n.significand ≠ 0 ∧ ¬ n.exponentNegative then .stuck .numberOutOfRange
    else .more { n with phase := .exponentFull }
  | .exponent, none => .ended
  | .exponentFull, some _ => .more n
  | .exponentFull, none => .ended

/-- Whether the bytes read so far are a whole number. -/
def isWhole (n : Numeral) : Bool :=
  match n.phase with
  | .sign | .point | .mark | .markSign => false
  | _ => true

/-! ### The value -/

open Decimal

/-- The double nearest to a power of ten up to `10 ^ 308`. -/
def powerOfTen (k : Nat) : Option Double :=
  Double.ofNat (Nat.pow 10 k)

/-- Multiplies or divides by a power of ten in steps of at most `10 ^ 308`; `none` beyond the
    greatest double.  The count bounds the steps: each moves the exponent by 308. -/
def scaled : Nat → Double → Int → Option Double
  | 0, f, _ => some f
  | steps + 1, f, e =>
    if e.natAbs ≤ 308 then
      if 0 ≤ e then (powerOfTen e.toNat).bind f.mul
      else (powerOfTen e.natAbs).bind f.div
    else if f.isZero then some f
    else if 0 ≤ e then none
    else
      match (powerOfTen 308).bind f.div with
      | some g => scaled steps g (e + 308)
      | none => none

def power (n : Numeral) : Int :=
  if n.exponentNegative then n.scale - n.exponent else n.scale + n.exponent

/-- The double that a number with fraction or exponent stands for. -/
def double (n : Numeral) : Option Double :=
  if n.phase = .exponentFull then some (Double.zero n.negative)
  else do
    let f ← Double.ofNat n.significand
    let g ← scaled (n.power.natAbs / 308 + 2) f n.power
    some (g.withSign n.negative)

def value (n : Numeral) : Option Number :=
  match n.phase with
  | .zero | .integer =>
    if n.negative then
      if n.significand = 0 ∨ Nat.pow 2 63 < n.significand then
        (Double.ofNat n.significand).map fun f => .real (f.withSign true)
      else some (.int (-(n.significand : Int)))
    else some (.int n.significand)
  | _ => n.double.map .real

end Numeral

end ClusterAgent.Json
