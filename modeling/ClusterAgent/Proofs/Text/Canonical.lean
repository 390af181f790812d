/-
  ClusterAgent/Proofs/Text/Canonical.lean
  =======================================
  **Every byte string has one text, and no other text is read.**

  `Canonical` says which texts are base64 without mentioning how they are written or read:
  digits of the alphabet in groups of four, at most two pads in place of the last digits,
  and no bit set that the pads leave unused.  These are the texts that are written
  (`canonical_digits`) and the texts that are read (`isSome_bytes?_iff`), and what is read
  is what the text was written for (`bytes?_eq_some_iff`).  So a piece of session output
  has one payload and a payload one meaning: `Envelope.chunks_have_one_form`.
-/
import ClusterAgent.Proofs.Text.Base64

namespace ClusterAgent.Text.Base64

/-! ### The alphabet -/

/-- The digits in the order of their values. -/
def alphabet : List Char :=
  "ABCDEFGHIJKLMNOPQRSTUVWXYZabcdefghijklmnopqrstuvwxyz0123456789+/".toList

theorem alphabet_eq : alphabet = (List.range 64).map digit := by
  decide +kernel

theorem digit_mem_alphabet (n : Nat) (hn : n < 64) : digit n ∈ alphabet := by
  rw [alphabet_eq]
  exact List.mem_map_of_mem (List.mem_range.mpr hn)

theorem value?_of_mem (c : Char) (hc : c ∈ alphabet) : ∃ n < 64, value? c = some n := by
  rw [alphabet_eq] at hc
  obtain ⟨n, hn, rfl⟩ := List.mem_map.mp hc
  rw [List.mem_range] at hn
  exact ⟨n, hn, value?_digit n hn⟩

theorem value?_ofNat : ∀ n < 123,
    (value? (Char.ofNat n)).all fun v => v < 64 ∧ digit v = Char.ofNat n := by
  decide +kernel

/-- A character that has a value is the digit for it. -/
theorem digit_of_value? {c : Char} {n : Nat} (h : value? c = some n) : n < 64 ∧ digit n = c := by
  by_cases hc : c.toNat < 123
  · have hall := value?_ofNat c.toNat hc
    rw [Char.ofNat_toNat, h] at hall
    simpa using hall
  · have hnone : value? c = none := by
      unfold value?
      dsimp only
      rw [if_neg (by omega), if_neg (by omega), if_neg (by omega), if_neg (by omega),
        if_neg (by omega)]
    rw [hnone] at h
    cases h

/-! ### What is read was written -/

theorem digits_of_three? {x y z w : Char} {bytes : List UInt8} (h : three? x y z w = some bytes) :
    ∃ a b c, bytes = [a, b, c] ∧ digits [a, b, c] = [x, y, z, w] := by
  simp only [three?, Option.bind_eq_bind, Option.bind_eq_some_iff, Option.some.injEq] at h
  obtain ⟨i, hx, j, hy, k, hz, l, hw, rfl⟩ := h
  obtain ⟨hi, rfl⟩ := digit_of_value? hx
  obtain ⟨hj, rfl⟩ := digit_of_value? hy
  obtain ⟨hk, rfl⟩ := digit_of_value? hz
  obtain ⟨hl, rfl⟩ := digit_of_value? hw
  refine ⟨_, _, _, rfl, ?_⟩
  simp only [digits]
  rw [UInt8.toNat_ofNat_of_lt' (show i * 4 + j / 16 < 256 by omega),
    UInt8.toNat_ofNat_of_lt' (show j % 16 * 16 + k / 4 < 256 by omega),
    UInt8.toNat_ofNat_of_lt' (show k % 4 * 64 + l < 256 by omega)]
  have h₁ : (i * 4 + j / 16) / 4 = i := by omega
  have h₂ : (i * 4 + j / 16) % 4 * 16 + (j % 16 * 16 + k / 4) / 16 = j := by omega
  have h₃ : (j % 16 * 16 + k / 4) % 16 * 4 + (k % 4 * 64 + l) / 64 = k := by omega
  have h₄ : (k % 4 * 64 + l) % 64 = l := by omega
  rw [h₁, h₂, h₃, h₄]

theorem digits_of_lastTwo? {x y z : Char} {bytes : List UInt8} (h : lastTwo? x y z = some bytes) :
    digits bytes = [x, y, z, '='] := by
  simp only [lastTwo?, Option.bind_eq_bind, Option.bind_eq_some_iff, Option.ite_none_right_eq_some,
    Option.some.injEq] at h
  obtain ⟨i, hx, j, hy, k, hz, hunused, rfl⟩ := h
  obtain ⟨hi, rfl⟩ := digit_of_value? hx
  obtain ⟨hj, rfl⟩ := digit_of_value? hy
  obtain ⟨hk, rfl⟩ := digit_of_value? hz
  simp only [digits]
  rw [UInt8.toNat_ofNat_of_lt' (show i * 4 + j / 16 < 256 by omega),
    UInt8.toNat_ofNat_of_lt' (show j % 16 * 16 + k / 4 < 256 by omega)]
  have h₁ : (i * 4 + j / 16) / 4 = i := by omega
  have h₂ : (i * 4 + j / 16) % 4 * 16 + (j % 16 * 16 + k / 4) / 16 = j := by omega
  have h₃ : (j % 16 * 16 + k / 4) % 16 * 4 = k := by omega
  rw [h₁, h₂, h₃]

theorem digits_of_lastOne? {x y : Char} {bytes : List UInt8} (h : lastOne? x y = some bytes) :
    digits bytes = [x, y, '=', '='] := by
  simp only [lastOne?, Option.bind_eq_bind, Option.bind_eq_some_iff, Option.ite_none_right_eq_some,
    Option.some.injEq] at h
  obtain ⟨i, hx, j, hy, hunused, rfl⟩ := h
  obtain ⟨hi, rfl⟩ := digit_of_value? hx
  obtain ⟨hj, rfl⟩ := digit_of_value? hy
  simp only [digits]
  rw [UInt8.toNat_ofNat_of_lt' (show i * 4 + j / 16 < 256 by omega)]
  have h₁ : (i * 4 + j / 16) / 4 = i := by omega
  have h₂ : (i * 4 + j / 16) % 4 * 16 = j := by omega
  rw [h₁, h₂]

theorem digits_of_bytes? {text : List Char} {bytes : List UInt8} (h : bytes? text = some bytes) :
    digits bytes = text := by
  fun_induction bytes? text generalizing bytes with
  | case1 =>
    obtain rfl := Option.some.inj h
    rfl
  | case2 x y =>
    exact digits_of_lastOne? h
  | case3 x y z =>
    exact digits_of_lastTwo? h
  | case4 x y z w =>
    obtain ⟨a, b, c, rfl, hdigits⟩ := digits_of_three? h
    exact hdigits
  | case5 x y z w rest hrest ih =>
    simp only [Option.bind_eq_bind, Option.bind_eq_some_iff, Option.some.injEq] at h
    obtain ⟨head, hhead, tail, htail, rfl⟩ := h
    obtain ⟨a, b, c, rfl, hdigits⟩ := digits_of_three? hhead
    have hfour : digits ([a, b, c] ++ tail) = digits [a, b, c] ++ digits tail := rfl
    rw [hfour, hdigits, ih htail]
    rfl
  | case6 => cases h

/-- Exactly the text that is written for some bytes is read as these. -/
theorem bytes?_eq_some_iff {text : List Char} {bytes : List UInt8} :
    bytes? text = some bytes ↔ text = digits bytes := by
  constructor
  · intro h
    exact (digits_of_bytes? h).symm
  · rintro rfl
    exact bytes?_digits bytes

/-! ### Canonical texts -/

/-- Digits and pads that make up a text: groups of four, at most two pads in place of the last
    digits. -/
structure Parts (body : List Char) (pads : Nat) : Prop where
  digits : ∀ c ∈ body, c ∈ alphabet
  groups : (body.length + pads) % 4 = 0
  few : pads ≤ 2
  /-- The last digit has none of the bits set that no byte takes: two for each pad. -/
  unused : ∀ last ∈ body.getLast?, ∀ n, value? last = some n → n % Nat.pow 4 pads = 0

/-- A text that consists of digits and then of pads. -/
def Canonical (text : List Char) : Prop :=
  ∃ body pads, text = body ++ List.replicate pads '=' ∧ Parts body pads

theorem parts_nil_iff {pads : Nat} : Parts [] pads ↔ pads = 0 := by
  constructor
  · intro h
    have hgroups := h.groups
    have hfew := h.few
    rw [List.length_nil] at hgroups
    omega
  · rintro rfl
    exact ⟨List.forall_mem_nil _, rfl, Nat.zero_le _, by simp⟩

/-- Whether digits and pads make up a text does not depend on the groups before the last. -/
theorem parts_group_iff {x y z w : Char} {body : List Char} {pads : Nat} :
    Parts (x :: y :: z :: w :: body) pads ↔
      (∀ c ∈ [x, y, z, w], c ∈ alphabet) ∧ Parts body pads := by
  constructor
  · intro h
    have hgroups : (body.length + pads) % 4 = 0 := by
      have hall := h.groups
      simp only [List.length_cons] at hall
      omega
    refine ⟨fun c hc => h.digits c (List.mem_append_left body hc),
      fun c hc => h.digits c (List.mem_append_right [x, y, z, w] hc), hgroups, h.few, ?_⟩
    cases body with
    | nil => simp
    | cons c body =>
      intro last hlast
      exact h.unused last (by simpa using hlast)
  · rintro ⟨hfour, h⟩
    have hdigits : ∀ c ∈ [x, y, z, w] ++ body, c ∈ alphabet := fun c hc =>
      (List.mem_append.mp hc).elim (hfour c) (h.digits c)
    have hgroups : ((x :: y :: z :: w :: body).length + pads) % 4 = 0 := by
      have hrest := h.groups
      simp only [List.length_cons]
      omega
    refine ⟨hdigits, hgroups, h.few, ?_⟩
    cases body with
    | nil =>
      obtain rfl := parts_nil_iff.mp h
      intro last _ n _
      exact Nat.mod_one n
    | cons c body =>
      intro last hlast
      exact h.unused last (by simpa using hlast)

theorem canonical_digits (bytes : List UInt8) : Canonical (digits bytes) := by
  fun_induction digits bytes with
  | case1 => exact ⟨[], 0, rfl, parts_nil_iff.mpr rfl⟩
  | case2 a =>
    have ha := a.toNat_lt
    refine ⟨[_, _], 2, rfl, ?_, by simp, Nat.le_refl 2, ?_⟩
    · simp only [List.forall_mem_cons]
      exact ⟨digit_mem_alphabet _ (by omega), digit_mem_alphabet _ (by omega), List.forall_mem_nil _⟩
    · intro last hlast n hn
      obtain rfl := Option.some.inj hlast
      have hvalue := value?_digit (a.toNat % 4 * 16) (by omega)
      obtain rfl := Option.some.inj (hvalue.symm.trans hn)
      exact Nat.mul_mod_left (a.toNat % 4) 16
  | case3 a b =>
    have ha := a.toNat_lt
    have hb := b.toNat_lt
    refine ⟨[_, _, _], 1, rfl, ?_, by simp, Nat.le_succ 1, ?_⟩
    · simp only [List.forall_mem_cons]
      exact ⟨digit_mem_alphabet _ (by omega), digit_mem_alphabet _ (by omega),
        digit_mem_alphabet _ (by omega), List.forall_mem_nil _⟩
    · intro last hlast n hn
      obtain rfl := Option.some.inj hlast
      have hvalue := value?_digit (b.toNat % 16 * 4) (by omega)
      obtain rfl := Option.some.inj (hvalue.symm.trans hn)
      exact Nat.mul_mod_left (b.toNat % 16) 4
  | case4 a b c rest ih =>
    have ha := a.toNat_lt
    have hb := b.toNat_lt
    have hc := c.toNat_lt
    obtain ⟨body, pads, hrest, hparts⟩ := ih
    refine ⟨_ :: _ :: _ :: _ :: body, pads, by rw [hrest]; rfl, parts_group_iff.mpr ⟨?_, hparts⟩⟩
    simp only [List.forall_mem_cons]
    exact ⟨digit_mem_alphabet _ (by omega), digit_mem_alphabet _ (by omega),
      digit_mem_alphabet _ (by omega), digit_mem_alphabet _ (by omega), List.forall_mem_nil _⟩

/-- The digits of a canonical text are read group by group, and its pads with the last of them. -/
theorem Parts.exists_bytes? : ∀ {body : List Char} {pads : Nat}, Parts body pads →
    ∃ bytes, bytes? (body ++ List.replicate pads '=') = some bytes
  | [], pads, h => by
    obtain rfl := parts_nil_iff.mp h
    exact ⟨[], rfl⟩
  | [x], pads, h => by
    have hgroups := h.groups
    have hfew := h.few
    simp only [List.length_singleton] at hgroups
    omega
  | [x, y], pads, h => by
    obtain rfl : pads = 2 := by
      have hgroups := h.groups
      have hfew := h.few
      simp only [List.length_cons, List.length_nil] at hgroups
      omega
    obtain ⟨i, hi, hx⟩ := value?_of_mem x (h.digits x (by simp))
    obtain ⟨j, hj, hy⟩ := value?_of_mem y (h.digits y (by simp))
    have hunused : j % 16 = 0 := h.unused y rfl j hy
    refine ⟨[UInt8.ofNat (i * 4 + j / 16)], ?_⟩
    show bytes? [x, y, '=', '='] = _
    simp [bytes?, lastOne?, hx, hy, hunused]
  | [x, y, z], pads, h => by
    obtain rfl : pads = 1 := by
      have hgroups := h.groups
      have hfew := h.few
      simp only [List.length_cons, List.length_nil] at hgroups
      omega
    obtain ⟨i, hi, hx⟩ := value?_of_mem x (h.digits x (by simp))
    obtain ⟨j, hj, hy⟩ := value?_of_mem y (h.digits y (by simp))
    obtain ⟨k, hk, hz⟩ := value?_of_mem z (h.digits z (by simp))
    have hunused : k % 4 = 0 := h.unused z rfl k hz
    have hdigit : z ≠ '=' := by
      rintro rfl
      cases hz
    refine ⟨[UInt8.ofNat (i * 4 + j / 16), UInt8.ofNat (j % 16 * 16 + k / 4)], ?_⟩
    show bytes? [x, y, z, '='] = _
    simp [bytes?, lastTwo?, hx, hy, hz, hdigit, hunused]
  | x :: y :: z :: w :: body, pads, h => by
    obtain ⟨hfour, hparts⟩ := parts_group_iff.mp h
    obtain ⟨i, hi, hx⟩ := value?_of_mem x (hfour x (by simp))
    obtain ⟨j, hj, hy⟩ := value?_of_mem y (hfour y (by simp))
    obtain ⟨k, hk, hz⟩ := value?_of_mem z (hfour z (by simp))
    obtain ⟨l, hl, hw⟩ := value?_of_mem w (hfour w (by simp))
    have hdigit : w ≠ '=' := by
      rintro rfl
      cases hw
    obtain ⟨tail, htail⟩ := hparts.exists_bytes?
    refine ⟨[UInt8.ofNat (i * 4 + j / 16), UInt8.ofNat (j % 16 * 16 + k / 4),
      UInt8.ofNat (k % 4 * 64 + l)] ++ tail, ?_⟩
    show bytes? (x :: y :: z :: w :: (body ++ List.replicate pads '=')) = _
    rw [bytes?_cons hdigit, htail]
    simp [three?, hx, hy, hz, hw]

/-- The texts that are read are the canonical ones. -/
theorem isSome_bytes?_iff {text : List Char} : (bytes? text).isSome ↔ Canonical text := by
  constructor
  · intro h
    obtain ⟨bytes, hbytes⟩ := Option.isSome_iff_exists.mp h
    rw [bytes?_eq_some_iff.mp hbytes]
    exact canonical_digits bytes
  · rintro ⟨body, pads, rfl, hparts⟩
    obtain ⟨bytes, hbytes⟩ := hparts.exists_bytes?
    rw [hbytes]
    rfl

/-! ### Lengths -/

theorem length_digits (bytes : List UInt8) : (digits bytes).length = 4 * ((bytes.length + 2) / 3) := by
  fun_induction digits bytes with
  | case1 | case2 | case3 => simp
  | case4 a b c rest ih =>
    simp only [List.length_cons, ih]
    omega

/-! ### Texts as strings -/

theorem decode?_eq_some_iff {text : String} {bytes : List UInt8} :
    decode? text = some bytes ↔ text = encode bytes := by
  unfold decode? encode
  rw [bytes?_eq_some_iff, ← String.toList_inj, String.toList_ofList]

theorem decode?_eq_none_iff {text : String} : decode? text = none ↔ ¬ Canonical text.toList := by
  rw [← isSome_bytes?_iff, Bool.not_eq_true, Option.isSome_eq_false_iff, Option.isNone_iff_eq_none]
  rfl

end ClusterAgent.Text.Base64

namespace ClusterAgent.Envelope

open Text.Base64 (Canonical encode canonical_digits length_digits decode?_eq_some_iff
  decode?_eq_none_iff)

theorem chunkBytes?_eq_some_iff {e : Envelope} {bytes : List UInt8} :
    e.chunkBytes? = some bytes ↔ e.data = .string (encode bytes) := by
  unfold chunkBytes?
  cases hdata : e.data with
  | string text => simp [Json.text?, decode?_eq_some_iff]
  | null | bool _ | number _ | array _ | object _ => simp [Json.text?]

theorem chunkBytes?_eq_none_iff {e : Envelope} :
    e.chunkBytes? = none ↔ ∀ text, e.data = .string text → ¬ Canonical text.toList := by
  unfold chunkBytes?
  cases hdata : e.data with
  | string text => simp [Json.text?, decode?_eq_none_iff]
  | null | bool _ | number _ | array _ | object _ => simp [Json.text?]

/-- **Session output has one payload, and a payload one meaning.**  Whatever bytes a shell or a log
    has given, their envelope carries a canonical text, four characters for every three bytes and
    for what remains, and the bytes are read off it again.  Of all envelopes, just those are read
    whose data is the text that is written for the same bytes: nothing is read off data that is no
    string, or a string that is no canonical text, and two payloads never mean the same bytes. -/
theorem chunks_have_one_form :
    (∀ (session : String) (bytes : List UInt8),
      ∃ text : String, (exec session bytes).data = .string text ∧
        (log session bytes).data = .string text ∧ Canonical text.toList ∧
        text.length = 4 * ((bytes.length + 2) / 3) ∧
        (exec session bytes).chunkBytes? = some bytes ∧
        (log session bytes).chunkBytes? = some bytes) ∧
    (∀ (e : Envelope) (session : String) (bytes : List UInt8),
      (e.chunkBytes? = some bytes ↔ e.data = (exec session bytes).data) ∧
      (e.chunkBytes? = some bytes ↔ e.data = (log session bytes).data)) ∧
    (∀ e : Envelope, e.chunkBytes? = none ↔
      ∀ text, e.data = .string text → ¬ Canonical text.toList) ∧
    ∀ (e e' : Envelope) (bytes : List UInt8),
      e.chunkBytes? = some bytes → e'.chunkBytes? = some bytes → e.data = e'.data := by
  refine ⟨fun session bytes => ?_, fun e session bytes => ?_, fun e => chunkBytes?_eq_none_iff,
    fun e e' bytes he he' => ?_⟩
  · refine ⟨encode bytes, rfl, rfl, ?_, ?_, chunkBytes?_chunk _ _ _, chunkBytes?_chunk _ _ _⟩
    · rw [encode, String.toList_ofList]
      exact canonical_digits bytes
    · rw [encode, String.length_ofList]
      exact length_digits bytes
  · exact ⟨chunkBytes?_eq_some_iff, chunkBytes?_eq_some_iff⟩
  · rw [chunkBytes?_eq_some_iff.mp he, chunkBytes?_eq_some_iff.mp he']

/-- Eight bytes of a listing have one payload.  A payload without its pad or with a bit set under
    the pad means nothing, and the very text means the bytes on any channel. -/
theorem chunks_have_one_form_of_listing :
    let listing := "ls -la\r\n".toUTF8.toList
    let wire : Envelope := ⟨.log, "s1", .string "bHMgLWxhDQo="⟩
    (exec "s1" listing).chunkBytes? = some listing ∧ wire.chunkBytes? = some listing ∧
      wire.data = (exec "s1" listing).data ∧
      chunkBytes? ⟨.exec, "s1", .string "bHMgLWxhDQo"⟩ ≠ some listing ∧
      chunkBytes? ⟨.exec, "s1", .string "bHMgLWxhDQp="⟩ ≠ some listing := by
  intro listing wire
  obtain ⟨hwritten, hread, -, hone⟩ := chunks_have_one_form
  obtain ⟨text, -, -, -, -, hexec, -⟩ := hwritten "s1" listing
  have hwire : wire.chunkBytes? = some listing := (hread wire "s1" listing).1.mpr (by decide +kernel)
  refine ⟨hexec, hwire, hone wire (exec "s1" listing) listing hwire hexec, ?_, ?_⟩
  · rw [Ne, (hread _ "s1" listing).1]
    decide +kernel
  · rw [Ne, (hread _ "s1" listing).1]
    decide +kernel

end ClusterAgent.Envelope
