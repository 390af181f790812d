/-
  ClusterAgent/Decimal/Double.lean
  ================================
  **Finite binary floating-point numbers with 53 significant bits.**

  A number that is no integer of the wire format is kept as the double nearest
  to what was written.  A double is stored as sign, significand and exponent in
  *canonical* form: the significand has exactly 53 bits, or fewer and then the
  exponent is the least one.  So two doubles are the same number with the same
  sign exactly when their fields agree, and everything below is arithmetic on
  natural numbers.

  `nearest` rounds a quotient to the nearest double, a tie going to the even
  significand.  Products, quotients and decimal texts are rounded by it once.
-/
namespace ClusterAgent.Decimal

/-- The number `± significand · 2 ^ exponent`. -/
structure Double where
  negative : Bool
  significand : Nat
  exponent : Int
deriving DecidableEq, Repr, Inhabited

namespace Double

def leastExponent : Int := -1074

def greatestExponent : Int := 971

def zero (negative : Bool) : Double :=
  ⟨negative, 0, leastExponent⟩

def isZero (d : Double) : Bool :=
  d.significand == 0

def withSign (negative : Bool) (d : Double) : Double :=
  { d with negative }

/-! ### Rounding -/

/-- `n / d` rounded to the nearest integer, a tie going to the even one. -/
def roundEven (n d : Nat) : Nat :=
  let q := n / d
  let r := n % d
  if 2 * r < d then q else if d < 2 * r then q + 1 else if q % 2 = 0 then q else q + 1

/-- The exponent that puts `n / d` into the range of 53-bit significands, never below the least
    exponent.  Both numbers are positive. -/
def exponentFor (n d : Nat) : Int :=
  let guess : Int := (Nat.log2 n : Int) - (Nat.log2 d : Int) - 52
  -- The quotient lies between 2 ^ (guess + 51) and 2 ^ (guess + 53).
  let below :=
    if 0 ≤ guess then n < d * Nat.pow 2 (guess.toNat + 52)
    else n * Nat.pow 2 (-guess).toNat < d * Nat.pow 2 52
  let e := if below then guess - 1 else guess
  if e < leastExponent then leastExponent else e

/-- The nonnegative double nearest to `n / d`; `none` if that lies beyond the greatest double. -/
def nearest (n d : Nat) : Option Double :=
  if n = 0 then some (zero false)
  else
    let e := exponentFor n d
    let s :=
      if 0 ≤ e then roundEven n (d * Nat.pow 2 e.toNat)
      else roundEven (n * Nat.pow 2 (-e).toNat) d
    let (s, e) := if s = Nat.pow 2 53 then (Nat.pow 2 52, e + 1) else (s, e)
    if greatestExponent < e then none else some ⟨false, s, e⟩

def ratio (d : Double) : Nat × Nat :=
  if 0 ≤ d.exponent then (d.significand * Nat.pow 2 d.exponent.toNat, 1)
  else (d.significand, Nat.pow 2 (-d.exponent).toNat)

/-! ### Arithmetic on magnitudes -/

def ofNat (n : Nat) : Option Double :=
  nearest n 1

def mul (x y : Double) : Option Double :=
  nearest (x.ratio.1 * y.ratio.1) (x.ratio.2 * y.ratio.2)

def div (x y : Double) : Option Double :=
  nearest (x.ratio.1 * y.ratio.2) (x.ratio.2 * y.ratio.1)

/-- The double nearest to `digits · 10 ^ scale`, where `digits` has at most `width` decimal
    digits.  Scales far outside the range are decided without computing the power. -/
def ofScientific (digits : Nat) (width : Nat) (scale : Int) : Option Double :=
  if digits = 0 then some (zero false)
  else if scale < -(400 + (width : Int)) then some (zero false)
  else if 400 < scale then none
  else if 0 ≤ scale then nearest (digits * Nat.pow 10 scale.toNat) 1
  else nearest digits (Nat.pow 10 (-scale).toNat)

end Double

end ClusterAgent.Decimal
