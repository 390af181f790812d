/-
  ClusterAgent/Proofs/Json/Numbers.lean
  =====================================
  **Cutting a number does not put it out of range.**

  A number that is cut off may look whole, as `12` does in `12e-3`, and is then given its
  value at once.  That value must be in range whenever the number as it goes on is: a
  number may shrink by what follows, but one of at most `digitLimit` digits is in range
  without its exponent (`Short.value_of_plain`), and an exponent that is cut off is the
  smaller one (`Short.value_of_longer`).

  What the bytes read so far mean is bounded by their digits.  With `s` the significand
  and `e` the scale, every digit keeps `(s + 1) · 10 ^ e` at or below `10 ^ k`, where `k`
  counts the digits: `Short`.
-/
import ClusterAgent.Json.Numeral
import ClusterAgent.Proofs.Decimal.Magnitude

namespace ClusterAgent.Json.Numeral

open Decimal (Double)
open Decimal.Double (Rounds greatest)

/-! ### What the digits bound -/

def isDigit (b : UInt8) : Bool :=
  (digit? b).isSome

/-- A number of so many digits is in range before its exponent is read. -/
def digitLimit : Nat := 300

/-- Whether the exponent mark lies ahead. -/
def Phase.isPlain : Phase → Bool
  | .mark | .markSign | .exponent | .exponentFull => false
  | _ => true

/-- What `k` digits can have made of a number at most. -/
structure Short (n : Numeral) (k : Nat) : Prop where
  word : n.significand ≤ wordMax
  bound : ((n.significand : ℚ) + 1) * 10 ^ n.scale ≤ 10 ^ k
  signed : n.phase = .sign → n.significand = 0 ∧ n.scale = 0
  plain : n.phase.isPlain → n.exponent = 0 ∧ n.exponentNegative = false

theorem digit_le {b : UInt8} {d : Nat} (h : digit? b = some d) : d ≤ 9 := by
  unfold digit? at h
  split at h
  case isTrue hb =>
    obtain rfl : b.toNat - 0x30 = d := by simpa using h
    have hle : b.toNat ≤ 0x39 := hb.2
    omega
  case isFalse => cases h

theorem short_start {b : UInt8} {n : Numeral} (h : start? b = some n) :
    n.Short (isDigit b).toNat := by
  unfold start? at h
  split at h
  · obtain rfl := Option.some.inj h
    exact ⟨by decide, by simp [one_le_pow₀], fun _ => ⟨rfl, rfl⟩, fun _ => ⟨rfl, rfl⟩⟩
  · split at h
    case h_1 hdigit =>
      obtain rfl := Option.some.inj h
      exact ⟨by decide, by simp [one_le_pow₀], nofun, fun _ => ⟨rfl, rfl⟩⟩
    case h_2 d hdigit hne =>
      obtain rfl := Option.some.inj h
      have hle := digit_le hne
      refine ⟨?_, ?_, nofun, fun _ => ⟨rfl, rfl⟩⟩
      · exact hle.trans (by decide)
      · have hcast : (d : ℚ) ≤ 9 := by exact_mod_cast hle
        simp only [isDigit, hne, Option.isSome_some, Bool.toNat_true, zpow_zero, mul_one, pow_one]
        linarith
    case h_3 => cases h

/-! ### One more byte -/

section Bounds

variable {s d k : Nat} {e : Int}

theorem bound_weaken (h : ((s : ℚ) + 1) * 10 ^ e ≤ 10 ^ k) (digits : Nat) :
    ((s : ℚ) + 1) * 10 ^ e ≤ 10 ^ (k + digits) :=
  h.trans (pow_le_pow_right₀ (by norm_num) (Nat.le_add_right k digits))

theorem bound_append (hd : d ≤ 9) (h : ((s : ℚ) + 1) * 10 ^ e ≤ 10 ^ k) :
    (((s * 10 + d : Nat) : ℚ) + 1) * 10 ^ e ≤ 10 ^ (k + 1) := by
  have hcast : (d : ℚ) ≤ 9 := by exact_mod_cast hd
  calc (((s * 10 + d : Nat) : ℚ) + 1) * 10 ^ e ≤ (((s : ℚ) + 1) * 10) * 10 ^ e := by
        gcongr
        push_cast
        linarith
    _ = ((s : ℚ) + 1) * 10 ^ e * 10 := by ring
    _ ≤ 10 ^ k * 10 := by gcongr
    _ = 10 ^ (k + 1) := (pow_succ _ _).symm

theorem bound_scale (h : ((s : ℚ) + 1) * 10 ^ e ≤ 10 ^ k) :
    ((s : ℚ) + 1) * 10 ^ (e + 1) ≤ 10 ^ (k + 1) := by
  rw [zpow_add_one₀ (by norm_num), ← mul_assoc, pow_succ]
  gcongr

theorem bound_fraction (hd : d ≤ 9) (h : ((s : ℚ) + 1) * 10 ^ e ≤ 10 ^ k) :
    (((s * 10 + d : Nat) : ℚ) + 1) * 10 ^ (e - 1) ≤ 10 ^ (k + 1) := by
  rw [zpow_sub_one₀ (by norm_num), ← mul_assoc]
  refine (mul_le_of_le_one_right (by positivity) ?_).trans (bound_append hd h)
  norm_num

end Bounds

theorem Short.weaken {n : Numeral} {k : Nat} (h : n.Short k) (more : Nat) :
    n.Short (k + more) :=
  ⟨h.word, bound_weaken h.bound more, h.signed, h.plain⟩

/-- A number never goes back behind its sign, nor from the exponent to the digits before it. -/
def Onward (n n' : Numeral) : Prop :=
  n'.phase ≠ .sign ∧ (n'.phase.isPlain → n.phase.isPlain ∧ n'.exponent = n.exponent ∧
    n'.exponentNegative = n.exponentNegative)

theorem step_of_no_digit {exact : Bool} {n n' : Numeral} {b : UInt8} (hb : digit? b = none)
    (h : n.step exact b = .more n') :
    Onward n n' ∧ n'.significand = n.significand ∧ n'.scale = n.scale := by
  unfold step at h
  rw [hb] at h
  cases hphase : n.phase
  all_goals
    simp only [hphase, afterInteger, afterDigits] at h
    repeat' split at h
  all_goals
    first
    | (obtain rfl := Step.more.inj h
       simp [Onward, Phase.isPlain, hphase])
    | cases h

theorem step_of_digit {exact : Bool} {n n' : Numeral} {b : UInt8} {d : Nat}
    (hb : digit? b = some d) (hsigned : n.phase = .sign → n.significand = 0)
    (h : n.step exact b = .more n') :
    Onward n n' ∧
      ((n'.significand = n.significand ∧ (n'.scale = n.scale ∨ n'.scale = n.scale + 1)) ∨
        (n'.significand = n.significand * 10 + d ∧ n'.significand ≤ wordMax ∧
          (n'.scale = n.scale ∨ n'.scale = n.scale - 1))) := by
  have hword : d ≤ wordMax := (digit_le hb).trans (by decide)
  unfold step at h
  rw [hb] at h
  cases hphase : n.phase
  case sign =>
    have hzero := hsigned hphase
    rcases d with _ | d
    all_goals
      simp only [hphase] at h
      obtain rfl := Step.more.inj h
      simp_all [Onward, Phase.isPlain]
  all_goals
    simp only [hphase, addFraction] at h
    repeat' split at h
  all_goals
    first
    | (obtain rfl := Step.more.inj h
       simp_all [Onward, Phase.isPlain, fits])
    | cases h

theorem Short.step {exact : Bool} {n n' : Numeral} {b : UInt8} {k : Nat} (h : n.Short k)
    (hs : n.step exact b = .more n') : n'.Short (k + (isDigit b).toNat) := by
  have hsigned (hphase : n.phase = .sign) : n.significand = 0 := (h.signed hphase).1
  have hplain (honward : Onward n n') (hphase : n'.phase.isPlain) :
      n'.exponent = 0 ∧ n'.exponentNegative = false := by
    obtain ⟨hbefore, hexponent, hnegative⟩ := honward.2 hphase
    rw [hexponent, hnegative]
    exact h.plain hbefore
  unfold isDigit
  cases hb : digit? b with
  | none =>
    obtain ⟨honward, hsignificand, hscale⟩ := step_of_no_digit hb hs
    refine ⟨hsignificand ▸ h.word, ?_, fun h' => absurd h' honward.1, hplain honward⟩
    rw [hsignificand, hscale]
    exact h.bound
  | some d =>
    have hd := digit_le hb
    obtain ⟨honward, ⟨hsignificand, hscale⟩ | ⟨hsignificand, hword, hscale⟩⟩ :=
      step_of_digit hb hsigned hs
    · refine ⟨hsignificand ▸ h.word, ?_, fun h' => absurd h' honward.1, hplain honward⟩
      rw [hsignificand]
      rcases hscale with hscale | hscale
      · rw [hscale]
        exact bound_weaken h.bound 1
      · rw [hscale]
        exact bound_scale h.bound
    · refine ⟨hword, ?_, fun h' => absurd h' honward.1, hplain honward⟩
      rw [hsignificand]
      rcases hscale with hscale | hscale
      · rw [hscale]
        exact bound_append hd h.bound
      · rw [hscale]
        exact bound_fraction hd h.bound

/-! ### Powers of ten -/

theorem ten_pow_lt_greatest : (10 : ℚ) ^ 308 < greatest := by
  have hnat : 10 ^ 308 + 2 ^ 971 < Nat.pow 2 53 * 2 ^ 971 := by decide +kernel
  have hcast : (10 : ℚ) ^ 308 + 2 ^ 971 < (Nat.pow 2 53 : Nat) * 2 ^ 971 := by
    exact_mod_cast hnat
  have hstep : greatest + 2 ^ 971 = ((Nat.pow 2 53 : Nat) : ℚ) * 2 ^ 971 :=
    Decimal.Double.greatest_add_step
  rw [← hstep] at hcast
  exact lt_of_add_lt_add_right hcast

theorem powerOfTen_of_le {k : Nat} (hk : k ≤ 308) :
    ∃ p, powerOfTen k = some p ∧ 10 ^ k / 2 ≤ p.magnitude ∧ p.magnitude ≤ 2 * 10 ^ k := by
  have hone : (1 : ℚ) ≤ 10 ^ k := one_le_pow₀ (by norm_num)
  have hrounds : Rounds (10 ^ k) (powerOfTen k) := by
    have h := Decimal.Double.rounds_ofNat (Nat.pow 10 k)
    rw [Nat.pow_eq, Nat.cast_pow, Nat.cast_ofNat] at h
    exact h
  have hlt : (10 : ℚ) ^ k < greatest :=
    (pow_le_pow_right₀ (by norm_num) hk).trans_lt ten_pow_lt_greatest
  obtain ⟨p, hp⟩ := hrounds.exists_of_lt hlt
  rw [hp] at hrounds
  refine ⟨p, hp, hrounds.half_le_magnitude hone, ?_⟩
  have hle := hrounds.magnitude_le
  rwa [max_eq_left hone] at hle

/-! ### Scaling -/

attribute [local irreducible] powerOfTen in
theorem scaled_succ (steps : Nat) (f : Double) (e : Int) :
    scaled (steps + 1) f e =
      if e.natAbs ≤ 308 then
        if 0 ≤ e then (powerOfTen e.toNat).bind f.mul else (powerOfTen e.natAbs).bind f.div
      else if f.isZero then some f
      else if 0 ≤ e then none
      else
        match (powerOfTen 308).bind f.div with
        | some g => scaled steps g (e + 308)
        | none => none := rfl

/-- A product with a power of ten up to `10 ^ 308` that stays away from the greatest double. -/
theorem scaled_up {f : Double} {e : Int} (he : 0 ≤ e) (hlimit : e ≤ 308)
    (hf : f.magnitude * 10 ^ e * 2 < greatest) (steps : Nat) :
    ∃ g, scaled (steps + 1) f e = some g := by
  obtain ⟨k, rfl⟩ := Int.eq_ofNat_of_zero_le he
  obtain ⟨p, hp, -, hle⟩ := powerOfTen_of_le (k := k) (by omega)
  have hlt : f.magnitude * p.magnitude < greatest := by
    refine lt_of_le_of_lt ?_ hf
    have hf' := f.magnitude_nonneg
    rw [zpow_natCast]
    calc f.magnitude * p.magnitude ≤ f.magnitude * (2 * 10 ^ k) := by gcongr
      _ = f.magnitude * 10 ^ k * 2 := by ring
  obtain ⟨g, hg⟩ := (Decimal.Double.rounds_mul f p).exists_of_lt hlt
  refine ⟨g, ?_⟩
  rw [scaled_succ, if_pos (by omega), if_pos he, Int.toNat_natCast, hp]
  exact hg

/-- Multiplying by a power of ten succeeds only within the range. -/
theorem le_of_scaled_up {f g : Double} {e : Int} {steps : Nat} (he : 0 ≤ e)
    (hf : f.isZero = false) (h : scaled (steps + 1) f e = some g) :
    e ≤ 308 ∧ f.magnitude * 10 ^ e < 2 ^ (1025 : Int) := by
  rw [scaled_succ] at h
  by_cases hnear : e.natAbs ≤ 308
  case pos =>
    obtain ⟨k, rfl⟩ := Int.eq_ofNat_of_zero_le he
    obtain ⟨p, hp, hhalf, -⟩ := powerOfTen_of_le (k := k) (by omega)
    rw [if_pos hnear, if_pos he, Int.toNat_natCast, hp] at h
    have hrounds := Decimal.Double.rounds_mul f p
    rw [show f.mul p = some g from h] at hrounds
    have hf' := f.magnitude_nonneg
    have hpower : (2 : ℚ) ^ (1025 : Int) = 2 * 2 ^ (1024 : Int) := by
      rw [show (1025 : Int) = 1 + 1024 from rfl, zpow_add₀ two_ne_zero, zpow_one]
    refine ⟨by omega, ?_⟩
    rw [zpow_natCast, hpower]
    calc f.magnitude * 10 ^ k = 2 * (f.magnitude * (10 ^ k / 2)) := by ring
      _ ≤ 2 * (f.magnitude * p.magnitude) := by gcongr
      _ < 2 * 2 ^ (1024 : Int) := by
        have hlt := hrounds.lt
        linarith
  case neg =>
    rw [if_neg hnear, hf, if_neg Bool.false_ne_true, if_pos he] at h
    cases h

theorem scaled_of_zero {f : Double} (hf : f.isZero = true) (steps : Nat) {e : Int} (he : 0 ≤ e) :
    ∃ g, scaled (steps + 1) f e = some g := by
  have hmagnitude : f.magnitude = 0 := by
    have hsignificand : f.significand = 0 := by simpa [Decimal.Double.isZero] using hf
    simp [Decimal.Double.magnitude, hsignificand]
  by_cases hnear : e ≤ 308
  · refine scaled_up he hnear ?_ steps
    rw [hmagnitude, zero_mul, zero_mul]
    exact (pow_pos (by norm_num) 308).trans ten_pow_lt_greatest
  · refine ⟨f, ?_⟩
    rw [scaled_succ, if_neg (by omega), if_pos hf]

theorem two_zpow_le_greatest : (2 : ℚ) ^ (1025 : Int) ≤ 4 * greatest := by
  have hpower : (2 : ℚ) ^ (1025 : Int) = 2 ^ 54 * 2 ^ (971 : Int) := by
    rw [show (1025 : Int) = ((54 : Nat) : Int) + 971 from rfl, zpow_add₀ two_ne_zero, zpow_natCast]
  have hgreatest : greatest = (2 ^ 53 - 1) * 2 ^ (971 : Int) := rfl
  rw [hpower, hgreatest, ← mul_assoc]
  gcongr
  norm_num

/-- What is in range with a power of ten stays so with a power that is less by nine or more. -/
theorem scaled_of_greater {f g : Double} {e e' : Int} {steps' : Nat}
    (h : scaled (steps' + 1) f e' = some g) (he : 0 ≤ e) (hmore : e + 9 ≤ e') (steps : Nat) :
    ∃ g, scaled (steps + 1) f e = some g := by
  cases hf : f.isZero with
  | true => exact scaled_of_zero hf steps he
  | false =>
    obtain ⟨hlimit, hlt⟩ := le_of_scaled_up (by omega) hf h
    refine scaled_up he (by omega) ?_ steps
    have hf' := f.magnitude_nonneg
    have hpower : (10 : ℚ) ^ e * 10 ^ 9 ≤ 10 ^ e' := by
      rw [← zpow_natCast, ← zpow_add₀ (by norm_num)]
      exact zpow_le_zpow_right₀ (by norm_num) hmore
    have hproduct : f.magnitude * 10 ^ e * 10 ^ 9 ≤ f.magnitude * 10 ^ e' := by
      rw [mul_assoc]
      gcongr
    have hnonneg : 0 ≤ f.magnitude * 10 ^ e := by positivity
    have hgreatest := hproduct.trans_lt (hlt.trans_le two_zpow_le_greatest)
    generalize f.magnitude * 10 ^ e = q at hnonneg hgreatest ⊢
    linarith

/-- A bound that a significand keeps to, and that large divisions do not leave. -/
theorem div_power {f : Double} (hf : f.magnitude ≤ 10 ^ 20) {k : Nat} (hk : k ≤ 308) :
    ∃ g, (powerOfTen k).bind f.div = some g ∧ (20 ≤ k → g.magnitude ≤ 10 ^ 20) := by
  obtain ⟨p, hp, hhalf, -⟩ := powerOfTen_of_le hk
  have hone : (1 : ℚ) ≤ 10 ^ k := one_le_pow₀ (by norm_num)
  have hpositive : 0 < p.magnitude := by linarith
  have hrounds := Decimal.Double.rounds_div f hpositive
  have hle : f.magnitude / p.magnitude ≤ 10 ^ 20 * 2 / 10 ^ k := by
    rw [div_le_div_iff₀ hpositive (by linarith)]
    have hf' := f.magnitude_nonneg
    nlinarith
  have hlt : f.magnitude / p.magnitude < greatest := by
    refine (hle.trans (div_le_self (by norm_num) hone)).trans_lt (lt_trans ?_ ten_pow_lt_greatest)
    calc (10 : ℚ) ^ 20 * 2 < 10 ^ 21 := by norm_num
      _ ≤ 10 ^ 308 := pow_le_pow_right₀ (by norm_num) (by norm_num)
  obtain ⟨g, hg⟩ := hrounds.exists_of_lt hlt
  refine ⟨g, by rw [hp]; exact hg, fun hlarge => ?_⟩
  rw [hg] at hrounds
  have htwo : (10 : ℚ) ^ 20 * 2 / 10 ^ k ≤ 2 := by
    rw [div_le_iff₀ (by positivity), mul_comm]
    gcongr
    norm_num
  have hmax : max (f.magnitude / p.magnitude) 1 ≤ 2 := max_le (hle.trans htwo) one_le_two
  have hfour : (2 : ℚ) * 2 ≤ 10 ^ 20 := by norm_num
  linarith [hrounds.magnitude_le]

/-- Dividing by a power of ten never leaves the range. -/
theorem scaled_down {f : Double} (hf : f.magnitude ≤ 10 ^ 20) (steps : Nat) {e : Int}
    (he : e < 0) : ∃ g, scaled steps f e = some g := by
  induction steps generalizing f e with
  | zero => exact ⟨f, rfl⟩
  | succ steps ih =>
    rw [scaled_succ]
    by_cases hnear : e.natAbs ≤ 308
    case pos =>
      obtain ⟨g, hg, -⟩ := div_power hf hnear
      rw [if_pos hnear, if_neg (by omega), hg]
      exact ⟨g, rfl⟩
    case neg =>
      rw [if_neg hnear, if_neg (show ¬0 ≤ e by omega)]
      split
      · exact ⟨f, rfl⟩
      · obtain ⟨g, hg, hsmall⟩ := div_power hf (k := 308) (le_refl _)
        rw [hg]
        exact ih (hsmall (by norm_num)) (by omega)

/-! ### Values -/

theorem ofNat_of_word {s : Nat} (hs : s ≤ wordMax) :
    ∃ f, Double.ofNat s = some f ∧ f.magnitude ≤ 2 * ((s : ℚ) + 1) ∧ f.magnitude ≤ 10 ^ 20 := by
  have hcast : (s : ℚ) + 1 ≤ 2 ^ 64 := by exact_mod_cast Nat.succ_le_succ hs
  have hrounds := Decimal.Double.rounds_ofNat s
  have hlt : (s : ℚ) < greatest := by
    calc (s : ℚ) < 2 ^ 64 := by linarith
      _ ≤ 10 ^ 20 := by norm_num
      _ ≤ 10 ^ 308 := pow_le_pow_right₀ (by norm_num) (by norm_num)
      _ < greatest := ten_pow_lt_greatest
  obtain ⟨f, hf⟩ := hrounds.exists_of_lt hlt
  rw [hf] at hrounds
  have hle : f.magnitude ≤ 2 * ((s : ℚ) + 1) := by
    refine hrounds.magnitude_le.trans ?_
    gcongr
    exact max_le (by linarith) (by linarith [(Nat.cast_nonneg s : (0 : ℚ) ≤ s)])
  refine ⟨f, hf, hle, hle.trans ?_⟩
  calc 2 * ((s : ℚ) + 1) ≤ 2 * 2 ^ 64 := by gcongr
    _ ≤ 10 ^ 20 := by norm_num

theorem Short.scale_le {n : Numeral} {k : Nat} (h : n.Short k) : n.scale ≤ k := by
  have hpower : (10 : ℚ) ^ n.scale ≤ 10 ^ (k : Int) := by
    rw [zpow_natCast]
    refine le_trans (le_mul_of_one_le_left (by positivity) ?_) h.bound
    linarith [(Nat.cast_nonneg n.significand : (0 : ℚ) ≤ n.significand)]
  exact (zpow_le_zpow_iff_right₀ (by norm_num)).mp hpower

/-- Few digits are in range, also when a negative exponent makes them less. -/
theorem Short.scaled_of_le {n : Numeral} {k : Nat} (h : n.Short k) (hk : k ≤ digitLimit)
    {f : Double} (hf : Double.ofNat n.significand = some f) {e : Int} (he : e ≤ n.scale)
    (steps : Nat) : ∃ g, scaled (steps + 1) f e = some g := by
  obtain ⟨f', hf', hle, hsmall⟩ := ofNat_of_word h.word
  obtain rfl : f' = f := Option.some.inj (hf'.symm.trans hf)
  rcases lt_or_ge e 0 with hnegative | hnonnegative
  · exact scaled_down hsmall (steps + 1) hnegative
  have hscale := h.scale_le
  unfold digitLimit at hk
  refine scaled_up hnonnegative (by omega) ?_ steps
  have hpower : (10 : ℚ) ^ e ≤ 10 ^ n.scale := zpow_le_zpow_right₀ (by norm_num) he
  calc f'.magnitude * 10 ^ e * 2 ≤ 2 * ((n.significand : ℚ) + 1) * 10 ^ n.scale * 2 := by gcongr
    _ = 4 * (((n.significand : ℚ) + 1) * 10 ^ n.scale) := by ring
    _ ≤ 4 * 10 ^ 300 := by
      gcongr
      exact h.bound.trans (pow_le_pow_right₀ (by norm_num) hk)
    _ ≤ 10 ^ 8 * 10 ^ 300 := by gcongr; norm_num
    _ = 10 ^ 308 := (pow_add _ _ _).symm
    _ < greatest := ten_pow_lt_greatest

theorem double_isSome_iff {n : Numeral} (hphase : n.phase ≠ .exponentFull) {f : Double}
    (hf : Double.ofNat n.significand = some f) :
    n.double.isSome ↔ ∃ g, scaled (n.power.natAbs / 308 + 2) f n.power = some g := by
  unfold double
  simp only [if_neg hphase, hf, Option.bind_eq_bind, Option.bind_some]
  cases scaled (n.power.natAbs / 308 + 2) f n.power <;> simp

theorem value_of_double {n : Numeral} (h : n.double.isSome) (hword : n.significand ≤ wordMax) :
    n.value.isSome := by
  obtain ⟨f, hf, -⟩ := ofNat_of_word hword
  unfold value
  split
  any_goals
    split
    · split
      · simp [hf]
      · rfl
    · rfl
  simpa using h

/-- A number of few digits is in range before its exponent. -/
theorem Short.value_of_plain {n : Numeral} {k : Nat} (h : n.Short k) (hk : k ≤ digitLimit)
    (hplain : n.phase.isPlain) : n.value.isSome := by
  obtain ⟨hexponent, hnegative⟩ := h.plain hplain
  obtain ⟨f, hf, -⟩ := ofNat_of_word h.word
  have hphase : n.phase ≠ .exponentFull := fun h' => by simp [h', Phase.isPlain] at hplain
  have hpower : n.power ≤ n.scale := by simp [power, hexponent, hnegative]
  exact value_of_double ((double_isSome_iff hphase hf).mpr (h.scaled_of_le hk hf hpower _)) h.word

/-- One more digit of an exponent, unless there are too many to count. -/
theorem step_exponent {n n' : Numeral} {b : UInt8} (hphase : n.phase = .exponent)
    (h : n.step true b = .more n') :
    (n'.phase = .exponent ∧ n'.significand = n.significand ∧ n'.scale = n.scale ∧
        n'.exponentNegative = n.exponentNegative ∧ n.exponent * 10 ≤ n'.exponent) ∨
      n.significand = 0 ∨ n.exponentNegative = true := by
  unfold step at h
  cases hb : digit? b with
  | none =>
    simp only [hphase, hb] at h
    cases h
  | some d =>
    simp only [hphase, hb] at h
    split at h
    · obtain rfl := Step.more.inj h
      exact .inl ⟨rfl, rfl, rfl, rfl, Nat.le_add_right _ _⟩
    · split at h
      · cases h
      case isFalse hsize =>
        refine .inr ?_
        simp only [true_and, not_and, not_not] at hsize
        exact or_iff_not_imp_left.mpr hsize

/-- A number that is in range with one more digit of its exponent is in range without it. -/
theorem Short.value_of_longer {n n' : Numeral} {k : Nat} {b : UInt8} (h : n.Short k)
    (hk : k ≤ digitLimit) (hphase : n.phase = .exponent) (hs : n.step true b = .more n')
    (hvalue : n'.phase = .exponent → n'.value.isSome) : n.value.isSome := by
  obtain ⟨f, hf, -, hword⟩ := ofNat_of_word h.word
  have hfull : n.phase ≠ .exponentFull := by simp [hphase]
  refine value_of_double ((double_isSome_iff hfull hf).mpr ?_) h.word
  rcases le_or_gt n.power n.scale with hsmall | hlarge
  · exact h.scaled_of_le hk hf hsmall _
  rcases Int.lt_or_le n.power 0 with hdown | hup
  · exact scaled_down hword _ hdown
  -- The exponent is positive, so the next digit makes it at least ten times as large.
  obtain ⟨hsign, hpositive⟩ : n.exponentNegative = false ∧ 0 < n.exponent := by
    unfold power at hlarge
    split at hlarge
    · omega
    case isFalse hsign => exact ⟨by simpa using hsign, by omega⟩
  rcases step_exponent hphase hs with
    ⟨hphase', hsignificand, hscale, hnegative, hexponent⟩ | hzero | hnegative
  · have hf' : Double.ofNat n'.significand = some f := by rwa [hsignificand]
    have hdouble : n'.double.isSome := by simpa [value, hphase'] using hvalue hphase'
    obtain ⟨g, hg⟩ := (double_isSome_iff (by simp [hphase']) hf').mp hdouble
    refine scaled_of_greater hg hup ?_ _
    simp only [power, hsign, hnegative, hscale, Bool.false_eq_true, if_false]
    omega
  · rw [hzero] at hf
    obtain rfl : Decimal.Double.zero false = f := Option.some.inj hf
    exact scaled_of_zero rfl _ hup
  · rw [hsign] at hnegative
    cases hnegative

/-- Of two prefixes of a number that look whole the shorter one is in range if the longer one
    is. -/
theorem Short.value_of_step {n n' : Numeral} {k : Nat} {b : UInt8} (h : n.Short k)
    (hk : k ≤ digitLimit) (hwhole : n.isWhole) (hs : n.step true b = .more n')
    (hvalue : n'.isWhole → n'.value.isSome) : n.value.isSome := by
  cases hplain : n.phase.isPlain with
  | true => exact h.value_of_plain hk hplain
  | false =>
    cases hphase : n.phase
    case exponent =>
      exact h.value_of_longer hk hphase hs fun hphase' => hvalue (by simp [isWhole, hphase'])
    case exponentFull => simp [value, double, hphase]
    all_goals simp [isWhole, Phase.isPlain, hphase] at hwhole hplain

end ClusterAgent.Json.Numeral
