/-
  ClusterAgent/Proofs/Json/RoundTrip.lean
  =======================================
  **What is written is read back.**

  The writer puts a value before the text that follows it, and the reader is a machine with
  a stack; so the round trip is stated for a value in its place.  Within a list or an object
  the machine, given the text of a value and what follows, does what it would do with the
  value in hand before what follows (`Reads`).  Each shape of value has its lemma, those of
  lists and objects with an induction over the items or fields, and `reads_of_sendable` puts
  them together along the value.  An object whose fields the reader expects is read as a
  whole: `readRecord_write`.
-/
import ClusterAgent.Proofs.Json.Ordered
import ClusterAgent.Proofs.Json.Quoting
import ClusterAgent.Json.Reader

namespace ClusterAgent.Json

open Reading (isSpace maxDepth)

/-- The value is read back when it stands within `depth` levels fewer than the reader takes: its
    integers fit a word, its fields are in order, and it has no more than so many levels of lists and
    objects. -/
inductive Sendable : (depth : Nat) → Json → Prop where
  | null (depth : Nat) : Sendable depth .null
  | bool (depth : Nat) (value : Bool) : Sendable depth (.bool value)
  | int (depth : Nat) (n : Int) (hlow : -(Nat.pow 2 63 : Int) ≤ n) (hhigh : n < Nat.pow 2 64) :
      Sendable depth (.int n)
  | string (depth : Nat) (s : String) : Sendable depth (.string s)
  | array (depth : Nat) (items : List Json) (h : ∀ v ∈ items, Sendable depth v) :
      Sendable (depth + 1) (.array items)
  | object (depth : Nat) (fields : List (String × Json)) (hsorted : Sorted fields)
      (h : ∀ field ∈ fields, Sendable depth field.2) : Sendable (depth + 1) (.object fields)

/-! ### Integers -/

namespace Numeral

/-- A number of which no digit has been read. -/
def signed (negative : Bool) : Numeral :=
  ⟨negative, 0, 0, false, 0, .sign⟩

/-- A number that is an integer so far. -/
def integer (negative : Bool) (n : Nat) : Numeral :=
  ⟨negative, n, 0, false, 0, if n = 0 then .zero else .integer⟩

/-- The number with one more byte, which does not end it. -/
def next? (n : Numeral) (b : UInt8) : Option Numeral :=
  match n.step true b with
  | .more n => some n
  | _ => none

theorem digit?_digitChar : ∀ d < 10,
    ∃ b, String.utf8EncodeChar d.digitChar = [b] ∧ digit? b = some d := by
  intro d hd
  refine ⟨UInt8.ofNat d.digitChar.toNat, utf8_ascii ?_, ?_⟩
  · revert d
    decide
  · revert d
    decide

theorem next?_signed (negative : Bool) {b : UInt8} {d : Nat} (h : digit? b = some d) :
    next? (signed negative) b = some (integer negative d) := by
  rcases d with _ | d
  · simp [next?, step, signed, integer, h]
  · simp [next?, step, signed, integer, h]

theorem next?_integer (negative : Bool) {n : Nat} (hn : n ≠ 0) {b : UInt8} {d : Nat}
    (h : digit? b = some d) (hfits : n * 10 + d ≤ wordMax) :
    next? (integer negative n) b = some (integer negative (n * 10 + d)) := by
  have hne : n * 10 + d ≠ 0 := by omega
  simp only [next?, step, integer, hn, h, fits, hfits, hne, if_false, decide_true, if_true]

theorem foldlM_digits (negative : Bool) {n : Nat} (hn : n ≤ wordMax) :
    (utf8 (Nat.toDigits 10 n)).foldlM next? (signed negative) = some (integer negative n) := by
  induction n using Nat.strong_induction_on with
  | _ n ih =>
    by_cases hsmall : n < 10
    · obtain ⟨b, hb, hdigit⟩ := digit?_digitChar n hsmall
      rw [Nat.toDigits_of_lt_base hsmall, utf8_cons, hb]
      simp [next?_signed negative hdigit]
    · obtain ⟨b, hb, hdigit⟩ := digit?_digitChar (n % 10) (by omega)
      have hsplit : n / 10 * 10 + n % 10 = n := by omega
      have hlast := next?_integer negative (by omega) hdigit (hsplit.symm ▸ hn)
      rw [hsplit] at hlast
      rw [Nat.toDigits_of_base_le (by decide) (by omega), utf8_append, List.foldlM_append,
        ih (n / 10) (by omega) (by omega), utf8_cons, hb]
      simp [hlast]

/-- The first digit of a number without a sign. -/
theorem start?_of_next? {b : UInt8} {n : Numeral} (h : next? (signed false) b = some n) :
    start? b = some n := by
  unfold next? step at h
  cases hdigit : digit? b with
  | none => simp [signed, hdigit] at h
  | some d =>
    have hsign : b ≠ 0x2D := by
      rintro rfl
      cases hdigit
    unfold start?
    rw [if_neg hsign, hdigit]
    rcases d with _ | d
    · simpa [signed, hdigit] using h
    · simpa [signed, hdigit] using h

theorem value_integer {n : Nat} : (integer false n).value = some (.int n) := by
  rcases n with _ | n
  · rfl
  · simp [integer, value]

theorem value_negative {n : Nat} (hn : n ≠ 0) (hbound : n ≤ Nat.pow 2 63) :
    (integer true n).value = some (.int (-n)) := by
  have hfits : ¬ Nat.pow 2 63 < n := by omega
  simp [integer, value, hn, hfits]

end Numeral

/-! ### The machine -/

variable {known : Option (List String)} {r r' : Reading} {b : UInt8} {rest : List UInt8}

/-- The document that the machine comes to, if it comes to one. -/
def outcome (known : Option (List String)) (r : Reading) (bytes : List UInt8) : Option Json :=
  (readFrom known r [] bytes).toOption

/-- What was read before only tells the place of a failure. -/
theorem toOption_onlySpace (v : Json) (seen seen' bytes : List UInt8) :
    (onlySpace v seen bytes).toOption = (onlySpace v seen' bytes).toOption := by
  induction bytes generalizing seen seen' with
  | nil => rfl
  | cons b rest ih =>
    unfold onlySpace
    split
    · exact ih _ _
    · rfl

theorem toOption_readFrom (r : Reading) (seen bytes : List UInt8) :
    (readFrom known r seen bytes).toOption = outcome known r bytes := by
  have hany : ∀ (r : Reading) (seen seen' : List UInt8),
      (readFrom known r seen bytes).toOption = (readFrom known r seen' bytes).toOption := by
    induction bytes with
    | nil =>
      intro r seen seen'
      unfold readFrom
      cases r.finish with
      | ok v => rfl
      | error f => rfl
    | cons b rest ih =>
      intro r seen seen'
      unfold readFrom
      cases r.step known b with
      | more r' => exact ih r' _ _
      | whole v used =>
        cases used with
        | true => exact toOption_onlySpace v _ _ _
        | false => exact toOption_onlySpace v _ _ _
      | stuck f used => rfl
  exact hany r seen []

theorem outcome_more (h : r.step known b = .more r') :
    outcome known r (b :: rest) = outcome known r' rest := by
  rw [← toOption_readFrom r' [b] rest, outcome, readFrom, h]

theorem outcome_congr (h : r.step known b = r'.step known b) :
    outcome known r (b :: rest) = outcome known r' (b :: rest) := by
  rw [outcome, outcome, readFrom, readFrom, h]

theorem outcome_whole {v : Json} (h : r.step known b = .whole v true) :
    outcome known r [b] = some v := by
  rw [outcome, readFrom, h]
  rfl

/-- While a string or a number is read, the machine does what the reader of strings or numbers
    does. -/
theorem outcome_foldlM {σ : Type} {next : σ → UInt8 → Option σ} (place : σ → Reading)
    (hstep : ∀ s b s', next s b = some s' → (place s).step known b = .more (place s'))
    {bytes : List UInt8} {s s' : σ} (h : bytes.foldlM next s = some s') :
    outcome known (place s) (bytes ++ rest) = outcome known (place s') rest := by
  induction bytes generalizing s with
  | nil =>
    cases h
    rfl
  | cons b bytes ih =>
    rw [List.foldlM_cons, Option.bind_eq_bind, Option.bind_eq_some_iff] at h
    obtain ⟨middle, hfirst, hrest⟩ := h
    rw [List.cons_append, outcome_more (hstep s b middle hfirst), ih hrest]

/-! ### A value in its place -/

/-- The machine waits for a value. -/
def Awaits (stage : Stage) : Prop :=
  stage = .value ∨ stage = .firstItem ∨ stage = .nextItem

/-- What follows a value within a list or an object. -/
def Closes (tail : List Char) : Prop :=
  ∃ c later, tail = c :: later ∧ (c = ',' ∨ c = ']' ∨ c = '\x7d')

/-- The machine with a value in hand for the innermost open list or object. -/
def given (v : Json) (frame : Frame) (stack : List Frame) : Reading :=
  match frame with
  | .list items => ⟨.afterItem, .list (v :: items) :: stack, false⟩
  | .object fields key => ⟨.afterField, .object (insert key v fields) key :: stack, false⟩

/-- Within a list or an object the text of the value is read as the value. -/
def Reads (known : Option (List String)) (depth : Nat) (v : Json) : Prop :=
  ∀ stage frame stack tail, Awaits stage → stack.length + 1 + depth ≤ maxDepth → Closes tail →
    outcome known ⟨stage, frame :: stack, false⟩ (utf8 (write v tail)) =
      outcome known (given v frame stack) (utf8 tail)

section Places

variable {stage : Stage} {frame : Frame} {stack : List Frame} {tail : List Char}

theorem deliver_given (v : Json) (used : Bool) :
    Reading.deliver ⟨stage, frame :: stack, false⟩ v used = .more (given v frame stack) := by
  cases frame with
  | list items => rfl
  | object fields key => rfl

theorem step_begin (h : Awaits stage) (hspace : isSpace b = false) (hclose : b ≠ 0x5D) :
    Reading.step known ⟨stage, frame :: stack, false⟩ b =
      Reading.begin ⟨stage, frame :: stack, false⟩ b := by
  rcases h with rfl | rfl | rfl
  · simp [Reading.step, Reading.stepPlain, hspace]
  · simp [Reading.step, Reading.stepPlain, hspace, hclose]
  · simp [Reading.step, Reading.stepPlain, hspace, hclose]

/-! #### Words -/

theorem step_word {c : UInt8} {more : List UInt8} (hmore : more ≠ []) (meaning : Json) :
    Reading.step known ⟨.word (c :: more) meaning, frame :: stack, false⟩ c =
      .more ⟨.word more meaning, frame :: stack, false⟩ := by
  cases more with
  | nil => exact absurd rfl hmore
  | cons d more => simp [Reading.step, Reading.stepPlain]

theorem step_lastOfWord (c : UInt8) (meaning : Json) :
    Reading.step known ⟨.word [c] meaning, frame :: stack, false⟩ c =
      .more (given meaning frame stack) := by
  simp [Reading.step, Reading.stepPlain, deliver_given]

/-- After its first letter the rest of a word is read. -/
theorem outcome_word (c : UInt8) (more : List UInt8) (meaning : Json) :
    outcome known ⟨.word (c :: more) meaning, frame :: stack, false⟩ (c :: (more ++ rest)) =
      outcome known (given meaning frame stack) rest := by
  induction more generalizing c with
  | nil => exact outcome_more (step_lastOfWord c meaning)
  | cons d more ih =>
    rw [outcome_more (step_word (List.cons_ne_nil d more) meaning), List.cons_append]
    exact ih d

theorem reads_word {v : Json} (depth : Nat) (first c : UInt8) (more : List UInt8)
    (hbytes : ∀ tail, utf8 (write v tail) = first :: c :: (more ++ utf8 tail))
    (hbegin : ∀ r : Reading, r.begin first = .more { r with stage := .word (c :: more) v })
    (hspace : isSpace first = false) (hclose : first ≠ 0x5D) : Reads known depth v := by
  intro stage frame stack tail hstage _ _
  have hfirst : Reading.step known ⟨stage, frame :: stack, false⟩ first =
      .more ⟨.word (c :: more) v, frame :: stack, false⟩ :=
    (step_begin hstage hspace hclose).trans (hbegin _)
  rw [hbytes, outcome_more hfirst, outcome_word]

theorem reads_null (depth : Nat) : Reads known depth .null :=
  reads_word depth 0x6E 0x75 [0x6C, 0x6C] (fun _ => rfl) (fun _ => rfl) rfl (by decide)

theorem reads_bool (depth : Nat) (value : Bool) : Reads known depth (.bool value) := by
  cases value with
  | true =>
    exact reads_word depth 0x74 0x72 [0x75, 0x65] (fun _ => rfl) (fun _ => rfl) rfl (by decide)
  | false =>
    exact reads_word depth 0x66 0x61 [0x6C, 0x73, 0x65] (fun _ => rfl) (fun _ => rfl) rfl
      (by decide)

/-! #### Integers -/

theorem step_numeral {n n' : Numeral} (h : n.next? b = some n') :
    Reading.step known ⟨.numeral n, frame :: stack, false⟩ b =
      .more ⟨.numeral n', frame :: stack, false⟩ := by
  unfold Numeral.next? at h
  split at h
  · rename_i next hstep
    cases h
    simp [Reading.step, hstep]
  · cases h

/-- A number ends with the byte that follows it. -/
theorem outcome_numeral {n : Numeral} {v : Number} (hphase : n.phase = .zero ∨ n.phase = .integer)
    (hvalue : n.value = some v) (htail : Closes tail) :
    outcome known ⟨.numeral n, frame :: stack, false⟩ (utf8 tail) =
      outcome known (given (.number v) frame stack) (utf8 tail) := by
  obtain ⟨c, later, rfl, hc⟩ := htail
  obtain ⟨b, hb, hends⟩ : ∃ b, String.utf8EncodeChar c = [b] ∧ n.step true b = .ended := by
    rcases hc with rfl | rfl | rfl
    all_goals
      refine ⟨_, rfl, ?_⟩
      rcases hphase with hphase | hphase
      all_goals
        unfold Numeral.step
        rw [hphase]
        rfl
  rw [utf8_cons, hb]
  apply outcome_congr
  have hend : Reading.endNumeral ⟨.numeral n, frame :: stack, false⟩ n =
      .more (given (.number v) frame stack) := by
    simp [Reading.endNumeral, hvalue, deliver_given]
  have hplain : Reading.step known (given (.number v) frame stack) b =
      Reading.stepPlain known (given (.number v) frame stack) b := by
    cases frame with
    | list items => rfl
    | object fields key => rfl
  rw [hplain]
  simp [Reading.step, hends, hend]

/-- The first byte of a number begins nothing else. -/
theorem ne_of_start? {n : Numeral} (h : Numeral.start? b = some n) {c : UInt8}
    (hc : Numeral.start? c = none) : b ≠ c := by
  rintro rfl
  cases hc.symm.trans h

theorem step_firstOfNumeral {n : Numeral} (hstage : Awaits stage)
    (h : Numeral.start? b = some n) :
    Reading.step known ⟨stage, frame :: stack, false⟩ b =
      .more ⟨.numeral n, frame :: stack, false⟩ := by
  have hspace : isSpace b = false := by
    simp [isSpace, ne_of_start? h (rfl : Numeral.start? 0x20 = none),
      ne_of_start? h (rfl : Numeral.start? 0x0A = none),
      ne_of_start? h (rfl : Numeral.start? 0x09 = none),
      ne_of_start? h (rfl : Numeral.start? 0x0D = none)]
  rw [step_begin hstage hspace (ne_of_start? h rfl), Reading.begin, if_neg (ne_of_start? h rfl),
    if_neg (ne_of_start? h rfl), if_neg (ne_of_start? h rfl), if_neg (ne_of_start? h rfl),
    if_neg (ne_of_start? h rfl), if_neg (ne_of_start? h rfl), h]

theorem phase_integer (negative : Bool) (n : Nat) :
    (Numeral.integer negative n).phase = .zero ∨ (Numeral.integer negative n).phase = .integer := by
  unfold Numeral.integer
  split
  · exact .inl rfl
  · exact .inr rfl

/-- From the first byte on, the digits of a number give the number. -/
theorem outcome_digits {n n' : Numeral} {bytes : List UInt8} {v : Number}
    (h : bytes.foldlM Numeral.next? n = some n') (hphase : n'.phase = .zero ∨ n'.phase = .integer)
    (hvalue : n'.value = some v) (htail : Closes tail) :
    outcome known ⟨.numeral n, frame :: stack, false⟩ (bytes ++ utf8 tail) =
      outcome known (given (.number v) frame stack) (utf8 tail) :=
  (outcome_foldlM (fun n => ⟨.numeral n, frame :: stack, false⟩) (fun _ _ _ => step_numeral) h).trans
    (outcome_numeral hphase hvalue htail)

theorem reads_int (depth : Nat) {n : Int} (hlow : -(Nat.pow 2 63 : Int) ≤ n)
    (hhigh : n < Nat.pow 2 64) :
    Reads known depth (.int n) := by
  intro stage frame stack tail hstage _ htail
  have hwrite : write (.int n) tail = (toString n).toList ++ tail := by
    rw [Json.int, write]
    rfl
  rw [hwrite, utf8_append]
  cases n with
  | ofNat m =>
    have hdigits : (toString (Int.ofNat m)).toList = Nat.toDigits 10 m := Nat.toList_repr
    have hbound : m ≤ Numeral.wordMax := by
      have hm : m < Nat.pow 2 64 := Int.ofNat_lt.mp hhigh
      exact Nat.le_sub_one_of_lt hm
    have hfold := Numeral.foldlM_digits false hbound
    rw [hdigits]
    -- The first digit is read as the first byte of a value, the others as bytes of the number.
    cases hbytes : utf8 (Nat.toDigits 10 m) with
    | nil =>
      rw [hbytes] at hfold
      have hphase := phase_integer false m
      rw [← Option.some.inj hfold] at hphase
      rcases hphase with hphase | hphase
      · cases hphase
      · cases hphase
    | cons b bytes =>
      rw [hbytes, List.foldlM_cons, Option.bind_eq_bind, Option.bind_eq_some_iff] at hfold
      obtain ⟨first, hfirst, hrest⟩ := hfold
      rw [List.cons_append, outcome_more
        (step_firstOfNumeral hstage (Numeral.start?_of_next? hfirst))]
      exact outcome_digits hrest (phase_integer false m) Numeral.value_integer htail
  | negSucc m =>
    have hdigits : (toString (Int.negSucc m)).toList = '-' :: Nat.toDigits 10 (m + 1) := by
      change ("-" ++ Nat.repr (m + 1)).toList = _
      rw [String.toList_append, Nat.toList_repr]
      rfl
    have hm : m + 1 ≤ Nat.pow 2 63 := by omega
    have hbound : m + 1 ≤ Numeral.wordMax := hm.trans (by decide)
    have hvalue := Numeral.value_negative (Nat.succ_ne_zero m) hm
    rw [hdigits, utf8_cons]
    have hsign : Reading.step known ⟨stage, frame :: stack, false⟩ 0x2D =
        .more ⟨.numeral (Numeral.signed true), frame :: stack, false⟩ :=
      step_firstOfNumeral hstage rfl
    refine (outcome_more hsign).trans ?_
    exact outcome_digits (Numeral.foldlM_digits true hbound) (phase_integer true (m + 1)) hvalue htail

/-! #### Strings -/

/-- A byte within a string, be it a value or a key. -/
theorem step_quote {place : Quote → Stage} (hplace : place = .text ∨ place = .key) {q q' : Quote}
    (h : q.next? b = some q') :
    Reading.step known ⟨place q, frame :: stack, false⟩ b =
      .more ⟨place q', frame :: stack, false⟩ := by
  unfold Quote.next? at h
  split at h
  · rename_i next hstep
    cases h
    rcases hplace with rfl | rfl
    · simp [Reading.step, Reading.stepPlain, hstep]
    · simp [Reading.step, Reading.stepPlain, hstep]
  · cases h

/-- A string of which all characters have been read. -/
def readQuote (s : String) : Quote :=
  ⟨(utf8 s.toList).reverse ++ [], .plain⟩

/-- The characters of a string, up to the closing quote. -/
theorem outcome_quote {place : Quote → Stage} (hplace : place = .text ∨ place = .key) (s : String) :
    outcome known ⟨place Quote.opened, frame :: stack, false⟩
        (utf8 (s.toList.flatMap escape) ++ rest) =
      outcome known ⟨place (readQuote s), frame :: stack, false⟩ rest :=
  outcome_foldlM (fun q => ⟨place q, frame :: stack, false⟩) (fun _ _ _ => step_quote hplace)
    (Quote.foldlM_chars s.toList [])

theorem step_closingQuote (s : String) :
    (readQuote s).step true 0x22 = .closed (utf8 s.toList) := by
  simp [readQuote, Quote.step]

theorem reads_string (depth : Nat) (s : String) : Reads known depth (.string s) := by
  intro stage frame stack tail hstage _ _
  have hfirst : Reading.step known ⟨stage, frame :: stack, false⟩ 0x22 =
      .more ⟨.text Quote.opened, frame :: stack, false⟩ := step_begin hstage rfl (by decide)
  have hlast : Reading.step known ⟨.text (readQuote s), frame :: stack, false⟩ 0x22 =
      .more (given (.string s) frame stack) := by
    simp [Reading.step, Reading.stepPlain, step_closingQuote, text?_utf8, deliver_given]
  rw [write, utf8_quote, outcome_more hfirst, outcome_quote (.inl rfl), outcome_more hlast]

/-! #### Lists -/

theorem closes_writeItems (items : List Json) (tail : List Char) :
    Closes (writeItems items tail) := by
  cases items with
  | nil => exact ⟨_, _, by rw [writeItems], .inr (.inl rfl)⟩
  | cons v items => exact ⟨_, _, by rw [writeItems], .inl rfl⟩

theorem outcome_writeItems {depth : Nat} {items : List Json}
    (hreads : ∀ v ∈ items, Reads known depth v) (hdepth : stack.length + 2 + depth ≤ maxDepth)
    (read : List Json) :
    outcome known ⟨.afterItem, .list read :: frame :: stack, false⟩ (utf8 (writeItems items tail)) =
      outcome known (given (.array (read.reverse ++ items)) frame stack) (utf8 tail) := by
  induction items generalizing read with
  | nil =>
    have hclose : Reading.step known ⟨.afterItem, .list read :: frame :: stack, false⟩ 0x5D =
        .more (given (.array read.reverse) frame stack) := deliver_given _ true
    rw [List.append_nil, writeItems, utf8_cons]
    exact outcome_more hclose
  | cons v items ih =>
    obtain ⟨hv, hitems⟩ := List.forall_mem_cons.mp hreads
    have hcomma : Reading.step known ⟨.afterItem, .list read :: frame :: stack, false⟩ 0x2C =
        .more ⟨.nextItem, .list read :: frame :: stack, false⟩ := rfl
    have hvalue := hv .nextItem (.list read) (frame :: stack) (writeItems items tail)
      (.inr (.inr rfl)) hdepth (closes_writeItems items tail)
    rw [writeItems, utf8_cons]
    refine (outcome_more hcomma).trans (hvalue.trans ?_)
    rw [given, ih hitems, List.reverse_cons, List.append_assoc, List.singleton_append]

/-- There is room for one more open list or object. -/
theorem enter_deeper (hroom : stack.length + 2 ≤ maxDepth) (opened : Frame) (first : Stage) :
    Reading.enter ⟨stage, frame :: stack, false⟩ opened first =
      .more ⟨first, opened :: frame :: stack, false⟩ := by
  have hless : ¬ maxDepth ≤ stack.length + 1 := by omega
  unfold Reading.enter
  rw [if_neg fun h => hless h.1]

theorem reads_array {depth : Nat} {items : List Json} (hreads : ∀ v ∈ items, Reads known depth v) :
    Reads known (depth + 1) (.array items) := by
  intro stage frame stack tail hstage hdepth _
  have hopen : Reading.step known ⟨stage, frame :: stack, false⟩ 0x5B =
      .more ⟨.firstItem, .list [] :: frame :: stack, false⟩ := by
    rw [step_begin hstage rfl (by decide)]
    exact enter_deeper (by omega) (.list []) .firstItem
  cases items with
  | nil =>
    have hclose : Reading.step known ⟨.firstItem, .list [] :: frame :: stack, false⟩ 0x5D =
        .more (given (.array []) frame stack) := deliver_given _ true
    have hbytes : utf8 (write (.array []) tail) = 0x5B :: 0x5D :: utf8 tail := rfl
    rw [hbytes, outcome_more hopen, outcome_more hclose]
  | cons v items =>
    obtain ⟨hv, hitems⟩ := List.forall_mem_cons.mp hreads
    have hvalue := hv .firstItem (.list []) (frame :: stack) (writeItems items tail)
      (.inr (.inl rfl)) (by rw [List.length_cons]; omega) (closes_writeItems items tail)
    rw [write, utf8_cons]
    refine (outcome_more hopen).trans (hvalue.trans ?_)
    exact outcome_writeItems hitems (by omega) [v]

/-! #### Objects -/

theorem closes_writeFields (fields : List (String × Json)) (tail : List Char) :
    Closes (writeFields fields tail) := by
  cases fields with
  | nil => exact ⟨_, _, by rw [writeFields], .inr (.inr rfl)⟩
  | cons field fields => exact ⟨_, _, by rw [writeFields], .inl rfl⟩

/-- The machine may take these fields: it is no record that is read, or the record has each of them
    and not yet a value for it. -/
def MayTake (known : Option (List String)) (taken : List (String × Json)) (stack : List Frame)
    (fields : List (String × Json)) : Prop :=
  stack ≠ [] ∨ ∀ names, known = some names →
    (∀ field ∈ fields, field.1 ∈ names ∧ find? field.1 taken = none) ∧ (fields.map (·.1)).Nodup

theorem MayTake.after {taken fields : List (String × Json)} {key : String} {v : Json}
    (h : MayTake known taken stack ((key, v) :: fields)) :
    MayTake known (insert key v taken) stack fields := by
  refine h.imp_right fun h names hnames => ?_
  obtain ⟨hnew, hnodup⟩ := h names hnames
  obtain ⟨hfirst, hnodup⟩ := List.nodup_cons.mp hnodup
  refine ⟨?_, hnodup⟩
  intro field hfield
  have hne : field.1 ≠ key := by
    rintro rfl
    exact hfirst (List.mem_map.mpr ⟨field, hfield, rfl⟩)
  rw [find?_insert_of_ne hne]
  exact hnew field (List.mem_cons_of_mem _ hfield)

theorem MayTake.takeKey {taken fields : List (String × Json)} {key : String} {v : Json}
    (h : MayTake known taken stack ((key, v) :: fields)) (q : Quote) (before : String) :
    Reading.takeKey known ⟨.key q, .object taken before :: stack, false⟩ key =
      .more ⟨.colon, .object taken key :: stack, false⟩ := by
  unfold Reading.takeKey
  cases stack with
  | cons frame stack =>
    cases known with
    | none => rfl
    | some names => rfl
  | nil =>
    cases known with
    | none => rfl
    | some names =>
      have hnames := h.resolve_left fun hne => hne rfl
      obtain ⟨hmem, hnew⟩ := (hnames names rfl).1 _ List.mem_cons_self
      simp [hmem, hnew]

/-- A key and its value are read where a key may stand. -/
theorem outcome_field {depth : Nat} {key : String} {v : Json} {taken fields : List (String × Json)}
    (hstage : stage = .firstKey ∨ stage = .nextKey) (hreads : Reads known depth v)
    (hdepth : stack.length + 1 + depth ≤ maxDepth)
    (htake : MayTake known taken stack ((key, v) :: fields)) (htail : Closes tail)
    (before : String) :
    outcome known ⟨stage, .object taken before :: stack, false⟩
        (utf8 (quote key.toList (':' :: write v tail))) =
      outcome known ⟨.afterField, .object (insert key v taken) key :: stack, false⟩ (utf8 tail) := by
  have hopen : Reading.step known ⟨stage, .object taken before :: stack, false⟩ 0x22 =
      .more ⟨.key Quote.opened, .object taken before :: stack, false⟩ := by
    rcases hstage with rfl | rfl
    · rfl
    · rfl
  have hclose : Reading.step known ⟨.key (readQuote key), .object taken before :: stack, false⟩
      0x22 = .more ⟨.colon, .object taken key :: stack, false⟩ := by
    simp [Reading.step, Reading.stepPlain, step_closingQuote, text?_utf8, htake.takeKey]
  have hcolon : Reading.step known ⟨.colon, .object taken key :: stack, false⟩ 0x3A =
      .more ⟨.value, .object taken key :: stack, false⟩ := rfl
  have hvalue := hreads .value (.object taken key) stack tail (.inl rfl) hdepth htail
  rw [utf8_quote, outcome_more hopen, outcome_quote (.inr rfl), outcome_more hclose, utf8_cons]
  exact (outcome_more hcolon).trans hvalue

/-- The fields with these put among them. -/
def insertAll (fields taken : List (String × Json)) : List (String × Json) :=
  fields.foldl (fun taken field => insert field.1 field.2 taken) taken

/-- All further fields are read, and the end of the object is to come. -/
theorem outcome_writeFields {depth : Nat} {taken fields : List (String × Json)}
    (hreads : ∀ field ∈ fields, Reads known depth field.2)
    (hdepth : stack.length + 1 + depth ≤ maxDepth) (htake : MayTake known taken stack fields)
    (before : String) (tail : List Char) :
    ∃ last, outcome known ⟨.afterField, .object taken before :: stack, false⟩
        (utf8 (writeFields fields tail)) =
      outcome known ⟨.afterField, .object (insertAll fields taken) last :: stack, false⟩
        (0x7D :: utf8 tail) := by
  induction fields generalizing taken before with
  | nil =>
    refine ⟨before, ?_⟩
    rw [writeFields, utf8_cons]
    rfl
  | cons field fields ih =>
    obtain ⟨key, v⟩ := field
    obtain ⟨hv, hfields⟩ := List.forall_mem_cons.mp hreads
    have hcomma : Reading.step known ⟨.afterField, .object taken before :: stack, false⟩ 0x2C =
        .more ⟨.nextKey, .object taken before :: stack, false⟩ := rfl
    have hfield := outcome_field (.inr rfl) hv hdepth htake (closes_writeFields fields tail) before
    obtain ⟨last, hlast⟩ := ih hfields htake.after key
    refine ⟨last, ?_⟩
    rw [writeFields, utf8_cons]
    exact (outcome_more hcomma).trans (hfield.trans hlast)

/-- The fields of an object are read, and its end is to come. -/
theorem outcome_fields {depth : Nat} {field : String × Json} {fields : List (String × Json)}
    (hreads : ∀ f ∈ field :: fields, Reads known depth f.2)
    (hdepth : stack.length + 1 + depth ≤ maxDepth)
    (htake : MayTake known [] stack (field :: fields)) (tail : List Char) :
    ∃ last, outcome known ⟨.firstKey, .object [] "" :: stack, false⟩
        (utf8 (quote field.1.toList (':' :: write field.2 (writeFields fields tail)))) =
      outcome known ⟨.afterField, .object (insertAll (field :: fields) []) last :: stack, false⟩
        (0x7D :: utf8 tail) := by
  obtain ⟨hv, hfields⟩ := List.forall_mem_cons.mp hreads
  have hfirst := outcome_field (.inl rfl) hv hdepth htake (closes_writeFields fields tail) ""
  obtain ⟨last, hlast⟩ := outcome_writeFields hfields hdepth htake.after field.1 tail
  exact ⟨last, hfirst.trans hlast⟩

theorem insertAll_of_sorted {taken fields : List (String × Json)} (h : Sorted (taken ++ fields)) :
    insertAll fields taken = taken ++ fields := by
  induction fields generalizing taken with
  | nil => exact (List.append_nil taken).symm
  | cons field fields ih =>
    have hbefore : ∀ f ∈ taken, f.1 < field.1 := by
      intro f hf
      exact (List.pairwise_append.mp h).2.2 f hf field List.mem_cons_self
    have hsplit : taken ++ field :: fields = (taken ++ [field]) ++ fields := by simp
    rw [hsplit] at h ⊢
    rw [insertAll, List.foldl_cons, insert_of_forall_lt hbefore]
    exact ih h

theorem reads_object {depth : Nat} {fields : List (String × Json)} (hsorted : Sorted fields)
    (hreads : ∀ field ∈ fields, Reads known depth field.2) :
    Reads known (depth + 1) (.object fields) := by
  intro stage frame stack tail hstage hdepth _
  have hopen : Reading.step known ⟨stage, frame :: stack, false⟩ 0x7B =
      .more ⟨.firstKey, .object [] "" :: frame :: stack, false⟩ := by
    rw [step_begin hstage rfl (by decide)]
    exact enter_deeper (by omega) (.object [] "") .firstKey
  cases fields with
  | nil =>
    have hclose : Reading.step known ⟨.firstKey, .object [] "" :: frame :: stack, false⟩ 0x7D =
        .more (given (.object []) frame stack) := deliver_given _ true
    have hbytes : utf8 (write (.object []) tail) = 0x7B :: 0x7D :: utf8 tail := rfl
    rw [hbytes, outcome_more hopen, outcome_more hclose]
  | cons field fields =>
    obtain ⟨last, hfields⟩ := outcome_fields hreads (by rw [List.length_cons]; omega)
      (.inl (List.cons_ne_nil frame stack)) tail
    have hclose : Reading.step known
        ⟨.afterField, .object (field :: fields) last :: frame :: stack, false⟩ 0x7D =
          .more (given (.object (field :: fields)) frame stack) := deliver_given _ true
    rw [insertAll_of_sorted hsorted, List.nil_append] at hfields
    rw [write, utf8_cons]
    exact (outcome_more hopen).trans (hfields.trans (outcome_more hclose))

end Places

/-! ### Values and records -/

theorem reads_of_sendable {depth : Nat} {v : Json} (h : Sendable depth v) :
    Reads known depth v := by
  induction h with
  | null depth => exact reads_null depth
  | bool depth value => exact reads_bool depth value
  | int depth n hlow hhigh => exact reads_int depth hlow hhigh
  | string depth s => exact reads_string depth s
  | array depth items _ ih => exact reads_array ih
  | object depth fields hsorted _ ih => exact reads_object hsorted ih

/-- **An object that is written is read back as a record**, if the record has its fields and each of
    them is given once. -/
theorem readRecord_write {names : List String} {fields : List (String × Json)}
    (hne : fields ≠ []) (hnames : ∀ field ∈ fields, field.1 ∈ names)
    (hnodup : (fields.map (·.1)).Nodup) (hvalues : ∀ field ∈ fields, Sendable 126 field.2) :
    (readRecord names (Json.object fields).render.toUTF8.toList).toOption =
      some (ofFields fields) := by
  have hrender : (Json.object fields).render.toUTF8.toList = utf8 (write (.object fields) []) :=
    toUTF8_ofList _
  have htake : MayTake (some names) [] [] fields := by
    refine .inr fun known hknown => ⟨fun field hfield => ?_, hnodup⟩
    cases hknown
    exact ⟨hnames field hfield, rfl⟩
  have hreads : ∀ field ∈ fields, Reads (some names) 126 field.2 := fun field hfield =>
    reads_of_sendable (hvalues field hfield)
  rw [readRecord, toOption_readFrom, hrender]
  cases fields with
  | nil => exact absurd rfl hne
  | cons field fields =>
    have hopen : Reading.step (some names) Reading.start 0x7B =
        .more ⟨.firstKey, [.object [] ""], false⟩ := rfl
    obtain ⟨last, hfields⟩ := outcome_fields hreads (le_refl _) htake []
    have hclose : Reading.step (some names)
        ⟨.afterField, [.object (insertAll (field :: fields) []) last], false⟩ 0x7D =
          .whole (ofFields (field :: fields)) true := rfl
    rw [write, utf8_cons]
    exact (outcome_more hopen).trans (hfields.trans (outcome_whole hclose))

end ClusterAgent.Json
