/-
  ClusterAgent/Proofs/Json/Quoting.lean
  =====================================
  **A string that is written is read back.**

  The writer escapes quotes, backslashes and control characters and leaves all other
  characters as they are; the reader takes a string byte by byte.  `Quote.foldlM_escape` says that
  the bytes of one character, escaped or not, leave the reader with the bytes of that
  character.  Those of a whole string are UTF-8 and give the string (`text?_utf8`).
-/
import ClusterAgent.Json.Quote
import ClusterAgent.Json.Writer

namespace ClusterAgent.Json

/-! ### Bytes of characters -/

def utf8 (cs : List Char) : List UInt8 :=
  cs.flatMap String.utf8EncodeChar

@[simp] theorem utf8_nil : utf8 [] = [] := rfl

theorem utf8_cons (c : Char) (cs : List Char) :
    utf8 (c :: cs) = String.utf8EncodeChar c ++ utf8 cs := rfl

theorem utf8_append (cs ds : List Char) : utf8 (cs ++ ds) = utf8 cs ++ utf8 ds :=
  List.flatMap_append

theorem toList_loop_eq (bytes : ByteArray) (i : Nat) (read : List UInt8) :
    ByteArray.toList.loop bytes i read = read.reverse ++ bytes.data.toList.drop i := by
  fun_induction ByteArray.toList.loop bytes i read with
  | case1 i read hmore ih =>
    have hi : i < bytes.data.toList.length := by simpa using hmore
    rw [ih, List.drop_eq_getElem_cons hi]
    simp [ByteArray.get!, hmore]
  | case2 i read hend =>
    rw [List.drop_eq_nil_of_le (by simpa using Nat.le_of_not_lt hend), List.append_nil]

theorem toUTF8_ofList (cs : List Char) : (String.ofList cs).toUTF8.toList = utf8 cs := by
  rw [String.toUTF8_eq_toByteArray, String.toByteArray_ofList, ByteArray.toList, toList_loop_eq]
  simp [List.utf8Encode, utf8]

/-- The bytes of the characters of a text are those of the text. -/
theorem text?_utf8 (s : String) : Quote.text? true (utf8 s.toList) = some s := by
  have hbytes : (⟨(utf8 s.toList).toArray⟩ : ByteArray) = s.toByteArray := by
    rw [← String.utf8Encode_toList]
    apply ByteArray.ext
    rw [List.utf8Encode, List.data_toByteArray]
    rfl
  rw [Quote.text?, if_pos rfl, hbytes, String.fromUTF8?, dif_pos s.isValidUTF8]
  rfl

/-- Within a string the byte stands for itself. -/
def Plain (b : UInt8) : Prop :=
  b.toNat ≠ 0x22 ∧ b.toNat ≠ 0x5C ∧ 0x20 ≤ b.toNat

/-- Of several bytes for one character each is beyond the ASCII range. -/
theorem le_of_mem_utf8 {c : Char} (hc : ¬ c.toNat ≤ 127) {b : UInt8}
    (hb : b ∈ String.utf8EncodeChar c) : 128 ≤ b.toNat := by
  have hval : c.val.toNat = c.toNat := rfl
  unfold String.utf8EncodeChar at hb
  dsimp only at hb
  rw [hval, if_neg hc] at hb
  split at hb
  · simp only [List.mem_cons, List.not_mem_nil, or_false] at hb
    rcases hb with rfl | rfl
    all_goals
      rw [UInt8.toNat_ofNat']
      omega
  · split at hb
    · simp only [List.mem_cons, List.not_mem_nil, or_false] at hb
      rcases hb with rfl | rfl | rfl
      all_goals
        rw [UInt8.toNat_ofNat']
        omega
    · simp only [List.mem_cons, List.not_mem_nil, or_false] at hb
      rcases hb with rfl | rfl | rfl | rfl
      all_goals
        rw [UInt8.toNat_ofNat']
        omega

theorem utf8_ascii {c : Char} (hc : c.toNat ≤ 127) :
    String.utf8EncodeChar c = [UInt8.ofNat c.toNat] := by
  unfold String.utf8EncodeChar
  exact if_pos hc

theorem toNat_ne {c d : Char} (h : c ≠ d) : c.toNat ≠ d.toNat := by
  intro hn
  exact h (Char.ext (UInt32.toNat_inj.mp hn))

/-- A character that stands for itself has no byte that could mean anything else. -/
theorem plain_of_mem {c : Char} (hquote : c ≠ '"') (hescape : c ≠ '\\')
    (hcontrol : ¬ c.toNat < 0x20) {b : UInt8} (hb : b ∈ String.utf8EncodeChar c) : Plain b := by
  have hquote' : c.toNat ≠ 0x22 := toNat_ne hquote
  have hescape' : c.toNat ≠ 0x5C := toNat_ne hescape
  by_cases hascii : c.toNat ≤ 127
  · rw [utf8_ascii hascii] at hb
    obtain rfl := List.mem_singleton.mp hb
    unfold Plain
    rw [UInt8.toNat_ofNat']
    omega
  · have hlarge := le_of_mem_utf8 hascii hb
    unfold Plain
    omega

namespace Quote

/-- The string with one more byte, which does not end it. -/
def next? (q : Quote) (b : UInt8) : Option Quote :=
  match q.step true b with
  | .more q => some q
  | _ => none

theorem next?_plain {b : UInt8} (h : Plain b) (before : List UInt8) :
    next? ⟨before, .plain⟩ b = some ⟨b :: before, .plain⟩ := by
  obtain ⟨hquote, hescape, hcontrol⟩ := h
  have hne : b ≠ 0x22 ∧ b ≠ 0x5C := by
    constructor
    · rintro rfl
      exact hquote rfl
    · rintro rfl
      exact hescape rfl
  have hless : ¬ b < 0x20 := by
    rw [UInt8.lt_iff_toNat_lt]
    exact Nat.not_lt.mpr hcontrol
  simp only [next?, step, hne.1, hne.2, hless, if_false]

theorem foldlM_plain {bytes : List UInt8} (h : ∀ b ∈ bytes, Plain b) (before : List UInt8) :
    bytes.foldlM next? ⟨before, .plain⟩ = some ⟨bytes.reverse ++ before, .plain⟩ := by
  induction bytes generalizing before with
  | nil => rfl
  | cons b bytes ih =>
    obtain ⟨hb, hrest⟩ := List.forall_mem_cons.mp h
    simp [next?_plain hb, ih hrest]

theorem hexDigit?_hexDigit : ∀ n < 16,
    ∃ b, String.utf8EncodeChar (hexDigit n) = [b] ∧ hexDigit? b = some n := by
  intro n hn
  refine ⟨UInt8.ofNat (hexDigit n).toNat, utf8_ascii ?_, ?_⟩
  · revert n
    decide
  · revert n
    decide

/-- A control character is written with the last two digits of its code. -/
theorem foldlM_control {n : Nat} (hn : n < 0x20) (before : List UInt8) :
    (utf8 ['\\', 'u', '0', '0', hexDigit (n / 16), hexDigit (n % 16)]).foldlM next?
        ⟨before, .plain⟩ =
      some ⟨(String.utf8EncodeChar (Char.ofNat n)).reverse ++ before, .plain⟩ := by
  obtain ⟨x, hx, hxvalue⟩ := hexDigit?_hexDigit (n / 16) (by omega)
  obtain ⟨y, hy, hyvalue⟩ := hexDigit?_hexDigit (n % 16) (by omega)
  have hbytes : utf8 ['\\', 'u', '0', '0', hexDigit (n / 16), hexDigit (n % 16)] =
      [0x5C, 0x75, 0x30, 0x30, x, y] := by
    simp only [utf8_cons, utf8_nil, hx, hy]
    rfl
  have hzero : hexDigit? 0x30 = some 0 := by decide
  have hvalue : hexValue? [y, x, 0x30, 0x30] = some n := by
    simp only [hexValue?, hzero, hxvalue, hyvalue, Option.bind_eq_bind, Option.bind_some,
      Option.some.injEq]
    omega
  have hend : endHex true ⟨before, .hex [x, 0x30, 0x30] none⟩ none n =
      .more (push ⟨before, .hex [x, 0x30, 0x30] none⟩ n) := by
    rw [endHex, if_pos rfl]
    dsimp only
    rw [if_neg (by omega), if_neg (by omega)]
  rw [hbytes]
  simp [next?, step, hvalue, hend, push]

/-- One character, escaped or not. -/
theorem foldlM_escape (c : Char) (before : List UInt8) :
    (utf8 (escape c)).foldlM next? ⟨before, .plain⟩ =
      some ⟨(String.utf8EncodeChar c).reverse ++ before, .plain⟩ := by
  unfold escape
  split
  · rename_i h
    subst h
    rfl
  split
  · rename_i h
    subst h
    rfl
  split
  · rename_i h
    obtain rfl : c = Char.ofNat 8 := by rw [← h, Char.ofNat_toNat]
    rfl
  split
  · rename_i h
    obtain rfl : c = Char.ofNat 12 := by rw [← h, Char.ofNat_toNat]
    rfl
  split
  · rename_i h
    subst h
    rfl
  split
  · rename_i h
    subst h
    rfl
  split
  · rename_i h
    subst h
    rfl
  split
  · rename_i h
    rw [foldlM_control h, Char.ofNat_toNat]
  · rename_i hquote hescape _ _ _ _ _ hcontrol
    have hplain : ∀ b ∈ utf8 [c], Plain b := by
      intro b hb
      rw [utf8_cons, utf8_nil, List.append_nil] at hb
      exact plain_of_mem hquote hescape hcontrol hb
    rw [foldlM_plain hplain, utf8_cons, utf8_nil, List.append_nil]

theorem foldlM_chars (cs : List Char) (before : List UInt8) :
    (utf8 (cs.flatMap escape)).foldlM next? ⟨before, .plain⟩ =
      some ⟨(utf8 cs).reverse ++ before, .plain⟩ := by
  induction cs generalizing before with
  | nil => rfl
  | cons c cs ih =>
    rw [List.flatMap_cons, utf8_append, List.foldlM_append, foldlM_escape, Option.bind_eq_bind,
      Option.bind_some, ih, utf8_cons, List.reverse_append, List.append_assoc]

end Quote

/-- A quoted string: a quote, the characters as they are escaped, a quote. -/
theorem utf8_quote (cs tail : List Char) :
    utf8 (quote cs tail) = 0x22 :: (utf8 (cs.flatMap escape) ++ 0x22 :: utf8 tail) := by
  have hchars : cs.foldr (fun c acc => escape c ++ acc) ('"' :: tail) =
      cs.flatMap escape ++ '"' :: tail := by
    induction cs with
    | nil => rfl
    | cons c cs ih => rw [List.foldr_cons, ih, List.flatMap_cons, List.append_assoc]
  rw [quote, hchars, utf8_cons, utf8_append, utf8_cons]
  rfl

end ClusterAgent.Json
