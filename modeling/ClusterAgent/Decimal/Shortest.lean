/-
  ClusterAgent/Decimal/Shortest.lean
  ==================================
  **The shortest decimal text that reads back as the same double.**

  A positive double stands for all reals that round to it, an interval whose
  ends belong to it exactly when its significand is even.  For one, two, … up
  to seventeen digits the two multiples of the matching power of ten next to
  the number are tried, and the first count with a hit wins; of two hits the
  nearer one is taken.  Where positional notation ends and how an exponent is
  written is the business of `Layout`.
-/
import ClusterAgent.Decimal.Double

namespace ClusterAgent.Decimal

namespace Double

/-! ### The interval of a double -/

/-- The reals that round to a positive double, as numerators over one denominator. -/
structure Interval where
  low : Nat
  value : Nat
  high : Nat
  denominator : Nat
  closed : Bool

/-- The interval of a positive double.  Its lower half is only half as wide below a power of two. -/
def interval (d : Double) : Interval :=
  let quarter : Int := d.exponent - 2
  let up := if 0 ≤ quarter then Nat.pow 2 quarter.toNat else 1
  let m := d.significand
  let step := if m = Nat.pow 2 52 ∧ leastExponent < d.exponent then 1 else 2
  { low := (4 * m - step) * up
    value := 4 * m * up
    high := (4 * m + 2) * up
    denominator := if 0 ≤ quarter then 1 else Nat.pow 2 (-quarter).toNat
    closed := m % 2 == 0 }

/-- Whether `c · 10 ^ k` lies in the interval. -/
def Interval.holds (i : Interval) (c : Nat) (k : Int) : Bool :=
  let lhs := if 0 ≤ k then c * Nat.pow 10 k.toNat * i.denominator else c * i.denominator
  let scale := if 0 ≤ k then 1 else Nat.pow 10 (-k).toNat
  if i.closed then i.low * scale ≤ lhs && lhs ≤ i.high * scale
  else i.low * scale < lhs && lhs < i.high * scale

/-! ### Digits -/

/-- How many decimal digits a natural number has; zero has one. -/
def width (n : Nat) : Nat :=
  (Nat.toDigits 10 n).length

/-- The power `p` with `10 ^ p ≤ n / d < 10 ^ (p + 1)`, both numbers positive. -/
def leadingPower (n d : Nat) : Int :=
  if d ≤ n then (width (n / d) : Int) - 1
  else
    let l := width (d / n) - 1
    if d ≤ n * Nat.pow 10 l then -(l : Int) else -(l : Int) - 1

/-- The two neighbours of the interval's number on the grid of `10 ^ k`, the nearer one first. -/
def Interval.neighbours (i : Interval) (k : Int) : List Nat :=
  let n := if 0 ≤ k then i.value else i.value * Nat.pow 10 (-k).toNat
  let d := if 0 ≤ k then i.denominator * Nat.pow 10 k.toNat else i.denominator
  let c := n / d
  let r := n % d
  if 2 * r < d ∨ (2 * r = d ∧ c % 2 = 0) then [c, c + 1] else [c + 1, c]

/-- Searches the grids of at least `17 - left` digits for a multiple inside the interval. -/
def Interval.search (i : Interval) (power : Int) : Nat → Nat × Int
  | 0 => (i.value / i.denominator, 0)
  | left + 1 =>
    let k := power + 1 - ((17 - left : Nat) : Int)
    match (i.neighbours k).find? (i.holds · k) with
    | some c => (c, k)
    | none => i.search power left

def dropZeros : Nat → Nat × Int → Nat × Int
  | 0, x => x
  | fuel + 1, (c, k) => if c ≠ 0 ∧ c % 10 = 0 then dropZeros fuel (c / 10, k + 1) else (c, k)

/-- The shortest digits `c` and exponent `k` with `c · 10 ^ k` rounding to a positive double. -/
def shortest (d : Double) : Nat × Int :=
  let i := d.interval
  let found := i.search (leadingPower i.value i.denominator) 17
  dropZeros (width found.1) found

/-! ### Text -/

/-- How the exponent of a number is written: whether a positive one carries a sign. -/
structure Layout where
  plusSign : Bool

/-- The text of a double: positional from `10 ^ -5` up to below `10 ^ 16`, always with a point,
    and with an exponent outside that range. -/
def text (layout : Layout) (d : Double) : List Char :=
  let sign := if d.negative then ['-'] else []
  if d.significand = 0 then sign ++ ['0', '.', '0']
  else
    let (c, k) := d.shortest
    let ds := Nat.toDigits 10 c
    let n := ds.length
    let e : Int := n + k
    let body :=
      if 0 ≤ k ∧ e ≤ 16 then ds ++ List.replicate k.toNat '0' ++ ['.', '0']
      else if 0 < e ∧ e ≤ 16 then ds.take e.toNat ++ '.' :: ds.drop e.toNat
      else if -5 < e ∧ e ≤ 0 then '0' :: '.' :: (List.replicate (-e).toNat '0' ++ ds)
      else
        let power := e - 1
        let mark :=
          if power < 0 then '-' :: Nat.toDigits 10 (-power).toNat
          else (if layout.plusSign then ['+'] else []) ++ Nat.toDigits 10 power.toNat
        let lead := if n ≤ 1 then ds else ds.take 1 ++ '.' :: ds.drop 1
        lead ++ 'e' :: mark
    sign ++ body

end Double

end ClusterAgent.Decimal
