/-
  ClusterAgent/Proofs/Text/Base64.lean
  ====================================
  **What was encoded is decoded again.**

  Digits are read back one by one (`value?_digit`), and a group of digits yields the
  bytes that it was made of; so a payload carries exactly the bytes that a session
  has read.
-/
import ClusterAgent.Protocol.Envelope

namespace ClusterAgent.Text.Base64

/-! ### Digits -/

theorem value?_digit : ∀ n < 64, value? (digit n) = some n := by
  decide +kernel

theorem digit_ne_pad : ∀ n < 64, digit n ≠ '=' := by
  decide +kernel

/-! ### Groups -/

theorem three?_digits (a b c : UInt8) :
    three? (digit (a.toNat / 4)) (digit (a.toNat % 4 * 16 + b.toNat / 16))
      (digit (b.toNat % 16 * 4 + c.toNat / 64)) (digit (c.toNat % 64)) = some [a, b, c] := by
  have ha := a.toNat_lt
  have hb := b.toNat_lt
  have hc := c.toNat_lt
  unfold three?
  rw [value?_digit _ (by omega), value?_digit _ (by omega), value?_digit _ (by omega),
    value?_digit _ (by omega)]
  have h₁ : a.toNat / 4 * 4 + (a.toNat % 4 * 16 + b.toNat / 16) / 16 = a.toNat := by omega
  have h₂ : (a.toNat % 4 * 16 + b.toNat / 16) % 16 * 16 +
      (b.toNat % 16 * 4 + c.toNat / 64) / 4 = b.toNat := by omega
  have h₃ : (b.toNat % 16 * 4 + c.toNat / 64) % 4 * 64 + c.toNat % 64 = c.toNat := by omega
  simp only [Option.bind_eq_bind, Option.bind_some, h₁, h₂, h₃, UInt8.ofNat_toNat]

theorem lastTwo?_digits (a b : UInt8) :
    lastTwo? (digit (a.toNat / 4)) (digit (a.toNat % 4 * 16 + b.toNat / 16))
      (digit (b.toNat % 16 * 4)) = some [a, b] := by
  have ha := a.toNat_lt
  have hb := b.toNat_lt
  unfold lastTwo?
  rw [value?_digit _ (by omega), value?_digit _ (by omega), value?_digit _ (by omega)]
  have h₁ : a.toNat / 4 * 4 + (a.toNat % 4 * 16 + b.toNat / 16) / 16 = a.toNat := by omega
  have h₂ : (a.toNat % 4 * 16 + b.toNat / 16) % 16 * 16 + b.toNat % 16 * 4 / 4 = b.toNat := by
    omega
  have h₃ : b.toNat % 16 * 4 % 4 = 0 := by omega
  simp only [Option.bind_eq_bind, Option.bind_some, h₁, h₂, h₃, if_true, UInt8.ofNat_toNat]

theorem lastOne?_digits (a : UInt8) :
    lastOne? (digit (a.toNat / 4)) (digit (a.toNat % 4 * 16)) = some [a] := by
  have ha := a.toNat_lt
  unfold lastOne?
  rw [value?_digit _ (by omega), value?_digit _ (by omega)]
  have h₁ : a.toNat / 4 * 4 + a.toNat % 4 * 16 / 16 = a.toNat := by omega
  have h₂ : a.toNat % 4 * 16 % 16 = 0 := by omega
  simp only [Option.bind_eq_bind, Option.bind_some, h₁, h₂, if_true, UInt8.ofNat_toNat]

/-! ### Whole texts -/

/-- A group of digits without padding is read before the rest. -/
theorem bytes?_cons {x y z w : Char} (hw : w ≠ '=') (rest : List Char) :
    bytes? (x :: y :: z :: w :: rest) =
      (three? x y z w).bind fun head => (bytes? rest).map (head ++ ·) := by
  cases rest with
  | nil =>
    simp [bytes?, hw]
  | cons first more =>
    rw [bytes?]
    · simp only [Option.map_eq_bind, Option.bind_eq_bind]
      rfl
    · simp

theorem bytes?_digits (bytes : List UInt8) : bytes? (digits bytes) = some bytes := by
  fun_induction digits bytes with
  | case1 => rfl
  | case2 a =>
    rw [bytes?, if_pos rfl, if_pos rfl]
    exact lastOne?_digits a
  | case3 a b =>
    have hb := b.toNat_lt
    rw [bytes?, if_pos rfl, if_neg (digit_ne_pad _ (by omega))]
    exact lastTwo?_digits a b
  | case4 a b c rest ih =>
    rw [bytes?_cons (digit_ne_pad _ (by omega)), three?_digits, ih]
    rfl

theorem decode?_encode (bytes : List UInt8) : decode? (encode bytes) = some bytes := by
  unfold decode? encode
  rw [String.toList_ofList]
  exact bytes?_digits bytes

end ClusterAgent.Text.Base64

namespace ClusterAgent.Envelope

theorem chunkBytes?_chunk (channel : Channel) (session : String) (bytes : List UInt8) :
    (chunk channel session bytes).chunkBytes? = some bytes :=
  Text.Base64.decode?_encode bytes

end ClusterAgent.Envelope
