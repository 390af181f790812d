/-
  ClusterAgent/Proofs/Decimal/Magnitude.lean
  ==========================================
  **How far rounding moves a number.**

  A double stands for a rational number, its `magnitude` when the sign is left aside.
  `exponentFor` places a quotient between two neighbouring powers of two
  (`lt_two_zpow_exponentFor`, `two_zpow_exponentFor_le`), and rounding moves it by at most
  the power that it chooses: `nearest_error`.  What a reader of decimal texts needs follows
  from these three.  No quotient below `2 ^ 1023` is out of range, none above `2 ^ 1024` is
  in range, and from one on, rounding keeps a quotient within a factor of two.
-/
import ClusterAgent.Decimal.Double
import Mathlib.Tactic.FieldSimp
import Mathlib.Tactic.Linarith
import Mathlib.Tactic.Positivity
import Mathlib.Tactic.NormNum
import Mathlib.Tactic.Ring
import Mathlib.Data.Rat.Cast.Order
import Mathlib.Algebra.Order.Field.Power

namespace ClusterAgent.Decimal.Double

/-- The number that a double stands for, but for its sign. -/
def magnitude (x : Double) : ℚ :=
  x.significand * 2 ^ x.exponent

theorem magnitude_nonneg (x : Double) : 0 ≤ x.magnitude := by
  unfold magnitude
  positivity

@[simp] theorem magnitude_zero (negative : Bool) : (zero negative).magnitude = 0 := by
  simp [zero, magnitude]

/-! ### Quotients and powers of two -/

theorem quotient_shrunk {e : Int} (h : 0 ≤ e) (n d : Nat) :
    (n : ℚ) / (d * Nat.pow 2 e.toNat : Nat) = n / d / 2 ^ e := by
  obtain ⟨k, rfl⟩ := Int.eq_ofNat_of_zero_le h
  simp [div_div]

theorem quotient_grown {e : Int} (h : e < 0) (n d : Nat) :
    ((n * Nat.pow 2 (-e).toNat : Nat) : ℚ) / d = n / d / 2 ^ e := by
  obtain ⟨k, hk⟩ := Int.eq_ofNat_of_zero_le (show 0 ≤ -e by omega)
  obtain rfl : e = -(k : Int) := by omega
  simp only [Int.neg_neg, Int.toNat_natCast, Nat.pow_eq, Nat.cast_mul, Nat.cast_pow,
    Nat.cast_ofNat, zpow_neg, zpow_natCast, div_inv_eq_mul]
  ring

theorem quotient_lt_two_zpow (n : Nat) {d : Nat} (hd : 0 < d) :
    (n : ℚ) / d < 2 ^ ((Nat.log2 n : Int) - (Nat.log2 d : Int) + 1) := by
  have hnumerator : (n : ℚ) < 2 ^ (Nat.log2 n + 1) := by
    exact_mod_cast Nat.lt_log2_self
  have hdenominator : (2 : ℚ) ^ Nat.log2 d ≤ d := by
    exact_mod_cast Nat.log2_self_le hd.ne'
  have hpositive : (0 : ℚ) < d := by exact_mod_cast hd
  have hpower : (2 : ℚ) ^ ((Nat.log2 n : Int) - (Nat.log2 d : Int) + 1) * 2 ^ Nat.log2 d =
      2 ^ (Nat.log2 n + 1) := by
    rw [← zpow_natCast, ← zpow_natCast, ← zpow_add₀ two_ne_zero]
    congr 1
    push_cast
    ring
  rw [div_lt_iff₀ hpositive]
  calc (n : ℚ) < 2 ^ ((Nat.log2 n : Int) - (Nat.log2 d : Int) + 1) * 2 ^ Nat.log2 d := by
        rwa [hpower]
    _ ≤ _ := by gcongr

theorem two_zpow_le_quotient {n d : Nat} (hn : 0 < n) (hd : 0 < d) :
    (2 : ℚ) ^ ((Nat.log2 n : Int) - (Nat.log2 d : Int) - 1) ≤ (n : ℚ) / d := by
  have hnumerator : (2 : ℚ) ^ Nat.log2 n ≤ n := by
    exact_mod_cast Nat.log2_self_le hn.ne'
  have hdenominator : (d : ℚ) ≤ 2 ^ (Nat.log2 d + 1) := by
    exact_mod_cast Nat.lt_log2_self.le
  have hpositive : (0 : ℚ) < d := by exact_mod_cast hd
  have hpower : (2 : ℚ) ^ ((Nat.log2 n : Int) - (Nat.log2 d : Int) - 1) *
      2 ^ (Nat.log2 d + 1) = 2 ^ Nat.log2 n := by
    rw [← zpow_natCast, ← zpow_natCast, ← zpow_add₀ two_ne_zero]
    congr 1
    push_cast
    ring
  rw [le_div_iff₀ hpositive]
  calc (2 : ℚ) ^ ((Nat.log2 n : Int) - (Nat.log2 d : Int) - 1) * d
      ≤ 2 ^ ((Nat.log2 n : Int) - (Nat.log2 d : Int) - 1) * 2 ^ (Nat.log2 d + 1) := by gcongr
    _ ≤ n := by rwa [hpower]

/-! ### The exponent of the result -/

/-- The test by which `exponentFor` corrects its first guess. -/
theorem below_iff {n d : Nat} (hd : 0 < d) (guess : Int) :
    (if 0 ≤ guess then n < d * Nat.pow 2 (guess.toNat + 52)
      else n * Nat.pow 2 (-guess).toNat < d * Nat.pow 2 52) ↔
      (n : ℚ) / d < 2 ^ (guess + 52) := by
  have hpositive : (0 : ℚ) < d := by exact_mod_cast hd
  split
  case isTrue h =>
    obtain ⟨k, rfl⟩ := Int.eq_ofNat_of_zero_le h
    rw [div_lt_iff₀ hpositive, mul_comm ((2 : ℚ) ^ _)]
    norm_cast
  case isFalse h =>
    have hgrown := quotient_grown (show guess < 0 by omega) n d
    have hscale : (0 : ℚ) < 2 ^ guess := by positivity
    rw [zpow_add₀ two_ne_zero, mul_comm ((2 : ℚ) ^ guess), ← div_lt_iff₀ hscale, ← hgrown,
      div_lt_iff₀ hpositive, mul_comm ((2 : ℚ) ^ _)]
    norm_cast

theorem exponentFor_bounds {n d : Nat} (hn : 0 < n) (hd : 0 < d) :
    (n : ℚ) / d < 2 ^ (exponentFor n d + 53) ∧ leastExponent ≤ exponentFor n d ∧
      (exponentFor n d = leastExponent ∨ (2 : ℚ) ^ (exponentFor n d + 52) ≤ n / d) := by
  have hupper := quotient_lt_two_zpow n hd
  have hlower := two_zpow_le_quotient hn hd
  unfold exponentFor
  generalize hguess : (Nat.log2 n : Int) - (Nat.log2 d : Int) - 52 = guess
  have hfirst : (n : ℚ) / d < 2 ^ (guess + 53) := by
    convert hupper using 2
    omega
  have hsecond : (2 : ℚ) ^ (guess + 51) ≤ n / d := by
    convert hlower using 2
    omega
  have hbelow := below_iff (n := n) hd guess
  -- The guess is corrected first; the corrected exponent fits from both sides.
  obtain ⟨e, he, hlt, hle⟩ : ∃ e : Int,
      (if (if 0 ≤ guess then n < d * Nat.pow 2 (guess.toNat + 52)
        else n * Nat.pow 2 (-guess).toNat < d * Nat.pow 2 52) then guess - 1 else guess) = e ∧
      (n : ℚ) / d < 2 ^ (e + 53) ∧ (2 : ℚ) ^ (e + 52) ≤ n / d := by
    by_cases h : (n : ℚ) / d < 2 ^ (guess + 52)
    · refine ⟨guess - 1, if_pos (hbelow.mpr h), ?_, ?_⟩
      · convert h using 2
        omega
      · convert hsecond using 2
        omega
    · exact ⟨guess, if_neg (mt hbelow.mp h), hfirst, not_lt.mp h⟩
  simp only [he]
  split
  case isTrue hleast =>
    refine ⟨hlt.trans_le ?_, le_refl _, .inl rfl⟩
    exact zpow_le_zpow_right₀ one_le_two (by omega)
  case isFalse hleast => exact ⟨hlt, by omega, .inr hle⟩

/-! ### Rounding -/

theorem roundEven_error (n : Nat) {d : Nat} (hd : 0 < d) :
    |(roundEven n d : ℚ) - n / d| ≤ 1 := by
  have hpositive : (0 : ℚ) < d := by exact_mod_cast hd
  have hsplit : (n : ℚ) / d = (n / d : Nat) + (n % d : Nat) / (d : ℚ) := by
    have hdiv : (n : ℚ) = d * (n / d : Nat) + (n % d : Nat) := by
      exact_mod_cast (Nat.div_add_mod n d).symm
    field_simp
    linarith
  have hrest : ((n % d : Nat) : ℚ) / d < 1 := by
    rw [div_lt_one hpositive]
    exact_mod_cast Nat.mod_lt n hd
  have hrest' : (0 : ℚ) ≤ (n % d : Nat) / (d : ℚ) := by positivity
  have hround : roundEven n d = n / d ∨ roundEven n d = n / d + 1 := by
    unfold roundEven
    dsimp only
    split
    · exact .inl rfl
    · split
      · exact .inr rfl
      · split
        · exact .inl rfl
        · exact .inr rfl
  rw [hsplit, abs_le]
  rcases hround with h | h
  · rw [h]
    constructor <;> linarith
  · rw [h]
    push_cast
    constructor <;> linarith

/-- The significand that rounding finds for the chosen exponent. -/
def roundedAt (n d : Nat) (e : Int) : Nat :=
  if 0 ≤ e then roundEven n (d * Nat.pow 2 e.toNat) else roundEven (n * Nat.pow 2 (-e).toNat) d

theorem roundedAt_error (n : Nat) {d : Nat} (hd : 0 < d) (e : Int) :
    |(roundedAt n d e : ℚ) * 2 ^ e - n / d| ≤ 2 ^ e := by
  have hscale : (0 : ℚ) < 2 ^ e := by positivity
  have herror : |(roundedAt n d e : ℚ) - n / d / 2 ^ e| ≤ 1 := by
    unfold roundedAt
    split
    case isTrue h =>
      rw [← quotient_shrunk h]
      exact roundEven_error n (Nat.mul_pos hd (Nat.pow_pos two_pos))
    case isFalse h =>
      rw [← quotient_grown (show e < 0 by omega)]
      exact roundEven_error _ hd
  calc |(roundedAt n d e : ℚ) * 2 ^ e - n / d|
      = |((roundedAt n d e : ℚ) - n / d / 2 ^ e) * 2 ^ e| := by
        congr 1
        field_simp
    _ = |(roundedAt n d e : ℚ) - n / d / 2 ^ e| * 2 ^ e := by
        rw [abs_mul, abs_of_pos hscale]
    _ ≤ 1 * 2 ^ e := by gcongr
    _ = 2 ^ e := one_mul _

/-- The greatest number that a double stands for. -/
def greatest : ℚ :=
  (2 ^ 53 - 1) * 2 ^ greatestExponent

/-- One step beyond the greatest double lies a power of two. -/
theorem greatest_add_step :
    greatest + 2 ^ greatestExponent = ((Nat.pow 2 53 : Nat) : ℚ) * 2 ^ greatestExponent := by
  unfold greatest
  push_cast
  ring

theorem nearest_cases {n : Nat} (hn : 0 < n) (d : Nat) :
    (∃ x, nearest n d = some x ∧ exponentFor n d ≤ greatestExponent ∧
        x.magnitude = roundedAt n d (exponentFor n d) * 2 ^ exponentFor n d) ∨
      (nearest n d = none ∧ (greatestExponent < exponentFor n d ∨
        exponentFor n d = greatestExponent ∧
          roundedAt n d (exponentFor n d) = Nat.pow 2 53)) := by
  unfold nearest
  rw [if_neg hn.ne']
  dsimp only
  rw [show (if 0 ≤ exponentFor n d then _ else _) = roundedAt n d (exponentFor n d) from rfl]
  by_cases hcarry : roundedAt n d (exponentFor n d) = Nat.pow 2 53
  case pos =>
    rw [if_pos hcarry]
    dsimp only
    split
    case isTrue h => exact .inr ⟨rfl, by omega⟩
    case isFalse h =>
      refine .inl ⟨_, rfl, by omega, ?_⟩
      rw [hcarry, magnitude, zpow_add₀ two_ne_zero]
      norm_num
      ring
  case neg =>
    rw [if_neg hcarry]
    dsimp only
    split
    case isTrue h => exact .inr ⟨rfl, .inl h⟩
    case isFalse h => exact .inl ⟨_, rfl, by omega, rfl⟩

theorem nearest_of_lt_greatest {n d : Nat} (hd : 0 < d) (h : (n : ℚ) / d < greatest) :
    ∃ x, nearest n d = some x := by
  rcases Nat.eq_zero_or_pos n with rfl | hn
  · exact ⟨zero false, rfl⟩
  rcases nearest_cases hn d with ⟨x, hx, -⟩ | ⟨-, hlarge | ⟨hexponent, hcarry⟩⟩
  · exact ⟨x, hx⟩
  · obtain ⟨-, -, hleast | hle⟩ := exponentFor_bounds hn hd
    · rw [hleast] at hlarge
      exact absurd hlarge (by decide)
    · have hpower : (2 : ℚ) ^ (53 + greatestExponent) ≤ 2 ^ (exponentFor n d + 52) :=
        zpow_le_zpow_right₀ one_le_two (by omega)
      rw [zpow_add₀ two_ne_zero] at hpower
      have hstep : (0 : ℚ) < 2 ^ greatestExponent := by positivity
      have hsum := greatest_add_step
      norm_num at hsum hpower
      linarith
  · have herror := roundedAt_error n hd (exponentFor n d)
    rw [hcarry, hexponent, abs_le] at herror
    linarith [herror.2, greatest_add_step]

theorem lt_of_nearest {n d : Nat} (hd : 0 < d) {x : Double} (h : nearest n d = some x) :
    (n : ℚ) / d < 2 ^ (1024 : Int) := by
  rcases Nat.eq_zero_or_pos n with rfl | hn
  · simp
  rcases nearest_cases hn d with ⟨y, -, hexponent, -⟩ | ⟨hnone, -⟩
  · refine (exponentFor_bounds hn hd).1.trans_le (zpow_le_zpow_right₀ one_le_two ?_)
    unfold greatestExponent at hexponent
    omega
  · rw [h] at hnone
    cases hnone

/-- Rounding moves a quotient by no more than a fraction of itself, or of one if it is smaller. -/
theorem nearest_error {n d : Nat} (hd : 0 < d) {x : Double} (h : nearest n d = some x) :
    |x.magnitude - n / d| ≤ max ((n : ℚ) / d) 1 / 2 ^ (52 : Int) := by
  rcases Nat.eq_zero_or_pos n with rfl | hn
  · cases h
    simp only [magnitude_zero, Nat.cast_zero, zero_div, sub_zero, abs_zero]
    positivity
  rcases nearest_cases hn d with ⟨y, hy, -, hmagnitude⟩ | ⟨hnone, -⟩
  · cases hy.symm.trans h
    rw [hmagnitude]
    refine (roundedAt_error n hd _).trans ?_
    rw [le_div_iff₀ (by positivity), ← zpow_add₀ two_ne_zero]
    obtain ⟨-, -, hleast | hle⟩ := exponentFor_bounds hn hd
    · refine le_trans ?_ (le_max_right _ _)
      rw [hleast]
      exact zpow_le_one_of_nonpos₀ one_le_two (by decide)
    · exact hle.trans (le_max_left _ _)
  · rw [h] at hnone
    cases hnone

/-! ### Rounded operations -/

theorem ratio_pos (x : Double) : 0 < x.ratio.2 := by
  unfold ratio
  split
  · exact Nat.one_pos
  · exact Nat.pow_pos two_pos

theorem magnitude_eq_ratio (x : Double) : x.magnitude = (x.ratio.1 : ℚ) / x.ratio.2 := by
  unfold ratio magnitude
  split
  case isTrue h =>
    obtain ⟨k, hk⟩ := Int.eq_ofNat_of_zero_le h
    simp [hk]
  case isFalse h =>
    obtain ⟨k, hk⟩ := Int.eq_ofNat_of_zero_le (show 0 ≤ -x.exponent by omega)
    obtain hneg : x.exponent = -(k : Int) := by omega
    simp [hneg, div_eq_mul_inv]

/-- A result that is a number rounded once. -/
def Rounds (q : ℚ) (result : Option Double) : Prop :=
  ∃ n d : Nat, 0 < d ∧ q = n / d ∧ result = nearest n d

theorem rounds_ofNat (n : Nat) : Rounds n (ofNat n) :=
  ⟨n, 1, Nat.one_pos, by simp, rfl⟩

theorem rounds_mul (x y : Double) : Rounds (x.magnitude * y.magnitude) (x.mul y) := by
  refine ⟨_, _, Nat.mul_pos x.ratio_pos y.ratio_pos, ?_, rfl⟩
  rw [x.magnitude_eq_ratio, y.magnitude_eq_ratio]
  push_cast
  exact div_mul_div_comm _ _ _ _

theorem rounds_div (x : Double) {y : Double} (hy : 0 < y.magnitude) :
    Rounds (x.magnitude / y.magnitude) (x.div y) := by
  have hnumerator : 0 < y.ratio.1 := by
    refine Nat.pos_of_ne_zero fun h => ?_
    rw [y.magnitude_eq_ratio, h] at hy
    simp at hy
  refine ⟨_, _, Nat.mul_pos x.ratio_pos hnumerator, ?_, rfl⟩
  rw [x.magnitude_eq_ratio, y.magnitude_eq_ratio]
  push_cast
  exact div_div_div_eq _ _ _ _

namespace Rounds

variable {q : ℚ} {result : Option Double} {x : Double}

theorem exists_of_lt (h : Rounds q result) (hq : q < greatest) : ∃ x, result = some x := by
  obtain ⟨n, d, hd, rfl, rfl⟩ := h
  exact nearest_of_lt_greatest hd hq

theorem lt (h : Rounds q (some x)) : q < 2 ^ (1024 : Int) := by
  obtain ⟨n, d, hd, rfl, hresult⟩ := h
  exact lt_of_nearest hd hresult.symm

theorem magnitude_le (h : Rounds q (some x)) : x.magnitude ≤ 2 * max q 1 := by
  obtain ⟨n, d, hd, rfl, hresult⟩ := h
  have herror := nearest_error hd hresult.symm
  have hpart : max ((n : ℚ) / d) 1 / 2 ^ (52 : Int) ≤ max ((n : ℚ) / d) 1 :=
    div_le_self (by positivity) (by norm_num)
  have hmax := le_max_left ((n : ℚ) / d) 1
  linarith [(abs_le.mp herror).2]

theorem half_le_magnitude (h : Rounds q (some x)) (hq : 1 ≤ q) : q / 2 ≤ x.magnitude := by
  obtain ⟨n, d, hd, rfl, hresult⟩ := h
  have herror := nearest_error hd hresult.symm
  rw [max_eq_left hq] at herror
  have hpart : (n : ℚ) / d / 2 ^ (52 : Int) ≤ n / d / 2 := by
    gcongr
    norm_num
  linarith [(abs_le.mp herror).1]

end Rounds

end ClusterAgent.Decimal.Double
