/-
  ClusterAgent/Proofs/Json/Splitting.lean
  =======================================
  **How any bytes split into documents.**

  `Splits` says what a stream of bytes consists of, without a reader that walks through it:
  documents with whitespace before each, every one of them read as a whole text of its own,
  and after the last of them nothing but whitespace, a document that is not finished, or one
  that cannot be decoded.  Where a word or a number ends is told by the byte after it.

  All bytes split in exactly one way, and the reader of documents finds it
  (`documents_eq_iff`).  The proof follows a document from its first byte to the step that
  completes it, breaks it or finds the end of the bytes (`Reading.Begun.fate`), and says of
  each of these what reading the text on its own makes of it and what the reader of the
  stream does.
-/
import ClusterAgent.Proofs.Json.Streams

namespace ClusterAgent.Json

open Reading (isSpace)

variable {r r' : Reading} {d v : Json}

/-! ### Faults before the end -/

/-- A fault that is met at a byte is never that the text stops too early. -/
def Reading.Step.Early : Reading.Step → Prop
  | .stuck f _ => f.isEnd = false
  | _ => True

theorem Numeral.step_stuck {exact : Bool} {n : Numeral} {b : UInt8} {f : Fault}
    (h : n.step exact b = .stuck f) : f.isEnd = false := by
  have hafter : ∀ m : Numeral, m.afterDigits b ≠ .stuck f := by
    intro m
    unfold Numeral.afterDigits
    split <;> nofun
  have hinteger : ∀ m : Numeral, m.afterInteger b ≠ .stuck f := by
    intro m
    unfold Numeral.afterInteger
    split
    · nofun
    · exact hafter m
  unfold Numeral.step at h
  repeat' split at h
  all_goals first
    | exact absurd h (hafter n)
    | exact absurd h (hinteger n)
    | cases h
  all_goals rfl

theorem Quote.step_stuck {exact : Bool} {q : Quote} {b : UInt8} {f : Fault}
    (h : q.step exact b = .stuck f) : f.isEnd = false := by
  unfold Quote.step Quote.endHex at h
  repeat' split at h
  all_goals cases h
  all_goals rfl

/-- A byte that may follow a number continues none. -/
theorem Numeral.step_foreign {exact : Bool} {n : Numeral} {b : UInt8} (hb : Cursor.mayFollow b) :
    n.step exact b = if n.isWhole then .ended else .stuck .invalidNumber := by
  have hforeign : digit? b = none ∧ b ≠ 0x2E ∧ b ≠ 0x65 ∧ b ≠ 0x45 ∧ b ≠ 0x2B ∧ b ≠ 0x2D := by
    simp only [Cursor.mayFollow, isSpace, Bool.or_eq_true, beq_iff_eq] at hb
    rcases hb with ((((((((((rfl | rfl) | rfl) | rfl) | rfl) | rfl) | rfl) | rfl) | rfl) | rfl) | rfl)
    all_goals decide
  obtain ⟨hdigit, hpoint, hlower, hupper, hplus, hminus⟩ := hforeign
  unfold Numeral.step Numeral.isWhole
  rw [hdigit]
  cases n.phase <;> simp [afterInteger, afterDigits, hpoint, hlower, hupper, hplus, hminus]

theorem Cursor.mayFollow_of_isSpace {b : UInt8} (hb : isSpace b) : mayFollow b := by
  unfold mayFollow
  simp only [hb, Bool.true_or]

/-- A number ends only where it is whole. -/
theorem Numeral.isWhole_of_ended {exact : Bool} {n : Numeral} {b : UInt8}
    (h : n.step exact b = .ended) : n.isWhole := by
  unfold Numeral.step at h
  cases hphase : n.phase with
  | sign | point | markSign =>
    rw [hphase] at h
    split at h
    all_goals first
      | cases ‹Phase.sign = _›
      | cases ‹Phase.point = _›
      | cases ‹Phase.markSign = _›
    all_goals cases h
  | mark =>
    rw [hphase] at h
    split at h
    all_goals cases ‹Phase.mark = _›
    · cases h
    · repeat' split at h
      all_goals cases h
  | _ => simp only [Numeral.isWhole, hphase]

/-- Whitespace closes no string. -/
theorem Quote.step_space {exact : Bool} {q : Quote} {b : UInt8} (hb : isSpace b)
    {bytes : List UInt8} : q.step exact b ≠ .closed bytes := by
  intro h
  have hquote : b ≠ 0x22 := by
    rintro rfl
    cases hb
  unfold Quote.step Quote.endHex at h
  rw [if_neg hquote] at h
  repeat' split at h
  all_goals cases h

namespace Reading

theorem deliver_early (r : Reading) (v : Json) (used : Bool) : (r.deliver v used).Early := by
  unfold deliver
  split <;> trivial

theorem close_early (r : Reading) : r.close.Early := by
  unfold close
  split
  · rfl
  · exact deliver_early _ _ _
  · exact deliver_early _ _ _

theorem enter_early (r : Reading) (frame : Frame) (stage : Stage) : (r.enter frame stage).Early := by
  unfold enter
  split
  · rfl
  · trivial

theorem begin_early (r : Reading) (b : UInt8) : (r.begin b).Early := by
  unfold begin
  repeat' split
  all_goals first
    | exact enter_early _ _ _
    | trivial

theorem takeKey_early (r : Reading) (key : String) : (takeKey none r key).Early := by
  unfold takeKey
  split <;> trivial

theorem endNumeral_early (r : Reading) (n : Numeral) : (r.endNumeral n).Early := by
  unfold endNumeral
  repeat' split
  · exact deliver_early _ _ _
  · exact deliver_early _ _ _
  · rfl

theorem stepPlain_early (r : Reading) (b : UInt8) : (stepPlain none r b).Early := by
  unfold stepPlain
  repeat' split
  all_goals first
    | exact deliver_early _ _ _
    | exact close_early _
    | exact begin_early _ _
    | exact takeKey_early _ _
    | exact Quote.step_stuck ‹_›
    | trivial

theorem step_early (r : Reading) (b : UInt8) : (r.step none b).Early := by
  unfold step
  split
  case h_1 n _ =>
    split
    · trivial
    · exact Numeral.step_stuck ‹_›
    · have hend := endNumeral_early r n
      split
      · exact stepPlain_early _ b
      · exact hend
  case h_2 => exact stepPlain_early r b

end Reading

/-! ### Within a document -/

def isWord : Json → Bool
  | .null | .bool _ => true
  | _ => false

theorem showsEnd_of_isWord (h : v.isWord) : v.showsEnd = false := by
  cases v with
  | null | bool => rfl
  | number | string | array | object => cases h

namespace Reading

/-- The reader stands within a number that is the whole document. -/
structure InNumber (r : Reading) : Prop where
  skim : r.skim = false
  stack : r.stack = []
  stage : ∃ n, r.stage = .numeral n

/-- The reader stands within a word that is the whole document. -/
structure InWord (r : Reading) : Prop where
  stack : r.stack = []
  stage : ∃ rest meaning, r.stage = .word rest meaning ∧ meaning.isWord ∧
    ∀ b ∈ rest, isSpace b = false

/-- The reader has read the first byte of a document and not its last. -/
inductive Begun (r : Reading) : Prop where
  | unclosed (digits : Nat) (h : r.Unclosed digits)
  | word (h : r.InWord)
  | number (h : r.InNumber)

/-- What a step does from within a document. -/
inductive Step.Ahead (r : Reading) (b : UInt8) : Step → Prop where
  | more (r' : Reading) (begun : r'.Begun) (tight : r'.InNumber → isSpace b = false) :
      Ahead r b (.more r')
  /-- The byte is the last of the document. -/
  | last (v : Json) (shown : v.showsEnd ∨ v.isWord) (tight : isSpace b = false) :
      Ahead r b (.whole v true)
  /-- The byte comes after a number. -/
  | after (v : Json) (number : r.InNumber) (hidden : v.showsEnd = false)
      (finish : r.finish = .ok v) : Ahead r b (.whole v false)
  | stuck (f : Fault) (used : Bool) (early : f.isEnd = false) : Ahead r b (.stuck f used)

/-- The last byte of a list, an object or a string is not whitespace. -/
theorem stepPlain_space {b : UInt8} (hb : isSpace b)
    (hword : ∀ rest meaning, r.stage = .word rest meaning → r.stack ≠ []) (v : Json) :
    stepPlain none r b ≠ .whole v true := by
  unfold stepPlain
  split
  case h_1 rest meaning hstage =>
    have hdeliver : r.deliver meaning true ≠ .whole v true := by
      unfold deliver
      split
      · exact absurd ‹_› (hword rest meaning hstage)
      · nofun
      · nofun
    repeat' split
    all_goals first
      | exact hdeliver
      | nofun
  case h_2 q _ =>
    split
    · nofun
    · nofun
    · exact absurd ‹_› (Quote.step_space hb)
  case h_3 q _ =>
    split
    · nofun
    · nofun
    · exact absurd ‹_› (Quote.step_space hb)
  case h_4 =>
    rw [if_pos hb]
    nofun

/-- A number within a list or an object leaves the reader after it, and one that is the document
    does not take the byte after it. -/
theorem endNumeral_cases (r : Reading) (n : Numeral) :
    (∃ r', r.endNumeral n = .more r' ∧ (r'.stage = .afterItem ∨ r'.stage = .afterField)) ∨
      (∃ v, r.endNumeral n = .whole v false) ∨ ∃ f, r.endNumeral n = .stuck f false := by
  have hdeliver : ∀ v, (∃ r', r.deliver v false = .more r' ∧
      (r'.stage = .afterItem ∨ r'.stage = .afterField)) ∨ r.deliver v false = .whole v false := by
    intro v
    unfold deliver
    split
    · exact .inr rfl
    · exact .inl ⟨_, rfl, .inl rfl⟩
    · exact .inl ⟨_, rfl, .inr rfl⟩
  unfold endNumeral
  split
  · exact (hdeliver .null).imp_right fun h => .inl ⟨_, h⟩
  · split
    · exact (hdeliver _).imp_right fun h => .inl ⟨_, h⟩
    · exact .inr (.inr ⟨_, rfl⟩)

theorem step_space {b : UInt8} (hb : isSpace b)
    (hword : ∀ rest meaning, r.stage = .word rest meaning → r.stack ≠ []) (v : Json) :
    r.step none b ≠ .whole v true := by
  unfold step
  split
  case h_1 n _ =>
    split
    · nofun
    · nofun
    · rcases r.endNumeral_cases n with ⟨r', hr', hafter⟩ | ⟨v, hv⟩ | ⟨f, hf⟩
      · rw [hr']
        refine stepPlain_space hb (fun rest meaning hstage => ?_) v
        rcases hafter with hafter | hafter <;> cases hafter.symm.trans hstage
      · rw [hv]
        nofun
      · rw [hf]
        nofun
  case h_2 => exact stepPlain_space hb hword v

theorem Unclosed.ahead {digits : Nat} (h : r.Unclosed digits) (b : UInt8) :
    (r.step none b).Ahead r b := by
  have honward := h.step b
  have hearly := step_early r b
  cases hstep : r.step none b with
  | more r' =>
    rw [hstep] at honward
    refine .more r' (.unclosed _ honward) fun hnumber => ?_
    -- Neither a list nor a string is a number.
    obtain ⟨n, hn⟩ := hnumber.stage
    rcases honward with hwithin | hquoted
    · exact absurd hnumber.stack hwithin.stack
    · obtain ⟨q, hq⟩ := hquoted.stage
      cases hn.symm.trans hq
  | whole v used =>
    rw [hstep] at honward
    obtain ⟨rfl, hshown⟩ := honward
    refine .last v (.inl hshown) ?_
    rw [Bool.eq_false_iff]
    intro hb
    refine step_space hb (fun rest meaning hword => ?_) v hstep
    rcases h with hwithin | hquoted
    · exact hwithin.stack
    · obtain ⟨q, hq⟩ := hquoted.stage
      cases hword.symm.trans hq
  | stuck f used =>
    rw [hstep] at hearly
    exact .stuck f used hearly

theorem InWord.ahead (h : r.InWord) (b : UInt8) : (r.step none b).Ahead r b := by
  obtain ⟨rest, meaning, hstage, hmeaning, hletters⟩ := h.stage
  have hstep : r.step none b = stepPlain none r b := by simp [step, hstage]
  rw [hstep]
  unfold stepPlain
  rw [hstage]
  dsimp only
  split
  case h_1 => exact .stuck _ _ rfl
  case h_2 c =>
    have htight := hletters c (by simp)
    split
    case isTrue hb =>
      unfold deliver
      rw [h.stack]
      exact .last _ (.inr hmeaning) (hb ▸ htight)
    case isFalse => exact .stuck _ _ rfl
  case h_3 c more _ =>
    split
    case isTrue hb =>
      refine .more _ (.word ⟨h.stack, more, meaning, rfl, hmeaning, fun b hb => ?_⟩) fun hnumber => ?_
      · exact hletters b (List.mem_cons_of_mem c hb)
      · obtain ⟨n, hn⟩ := hnumber.stage
        cases hn
    case isFalse => exact .stuck _ _ rfl

theorem InNumber.endNumeral (h : r.InNumber) (n : Numeral) :
    r.endNumeral n = match n.value with
      | some v => .whole (.number v) false
      | none => .stuck .numberOutOfRange false := by
  unfold Reading.endNumeral Reading.deliver
  rw [h.stack, h.skim]
  rfl

theorem InNumber.ahead (h : r.InNumber) (b : UInt8) : (r.step none b).Ahead r b := by
  obtain ⟨n, hstage⟩ := h.stage
  unfold step
  rw [hstage]
  dsimp only
  split
  case h_1 n' hstep =>
    refine .more _ (.number ⟨h.skim, h.stack, n', rfl⟩) fun _ => ?_
    rw [Bool.eq_false_iff]
    intro hb
    rw [Numeral.step_foreign (Cursor.mayFollow_of_isSpace hb)] at hstep
    split at hstep <;> cases hstep
  case h_2 => exact .stuck _ _ (Numeral.step_stuck ‹_›)
  case h_3 hstep =>
    rw [h.endNumeral]
    cases hvalue : n.value with
    | none => exact .stuck _ _ rfl
    | some v =>
      refine .after _ h rfl ?_
      unfold finish
      rw [hstage]
      simp only [Numeral.isWhole_of_ended hstep, if_true, h.endNumeral, hvalue]

theorem Begun.ahead (h : r.Begun) (b : UInt8) : (r.step none b).Ahead r b := by
  cases h with
  | unclosed digits h => exact h.ahead b
  | word h => exact h.ahead b
  | number h => exact h.ahead b

/-- The first byte of a document, if one begins with it. -/
theorem start_ahead {b : UInt8} (hb : isSpace b = false) :
    (∃ r, start.step none b = .more r ∧ r.Begun) ∨
      ∃ f used, start.step none b = .stuck f used ∧ f.isEnd = false := by
  have hword : ∀ rest meaning, meaning.isWord → (∀ b ∈ rest, isSpace b = false) →
      Begun { start with stage := .word rest meaning } := fun rest meaning hmeaning hletters =>
    .word ⟨rfl, rest, meaning, rfl, hmeaning, hletters⟩
  have hbegin : start.step none b = start.begin b := by
    simp [step, stepPlain, start, hb]
  rw [hbegin]
  unfold begin
  split
  · exact .inl ⟨_, rfl, .unclosed 0 (.inl ⟨rfl, List.cons_ne_nil _ _, by simp⟩)⟩
  split
  · exact .inl ⟨_, rfl, .unclosed 0 (.inl ⟨rfl, List.cons_ne_nil _ _, by simp⟩)⟩
  split
  · exact .inl ⟨_, rfl, .unclosed 0 (.inr ⟨rfl, rfl, _, rfl⟩)⟩
  split
  · exact .inl ⟨_, rfl, hword _ _ rfl (by simp [isSpace])⟩
  split
  · exact .inl ⟨_, rfl, hword _ _ rfl (by simp [isSpace])⟩
  split
  · exact .inl ⟨_, rfl, hword _ _ rfl (by simp [isSpace])⟩
  split
  · exact .inl ⟨_, rfl, .number ⟨rfl, rfl, _, rfl⟩⟩
  · exact .inr ⟨_, _, rfl, rfl⟩

/-- Of the documents that have begun only a number may be whole without a further byte. -/
theorem Begun.finish (h : r.Begun) (hv : r.finish = .ok v) :
    r.InNumber ∧ v.showsEnd = false ∧
      ∀ b, Cursor.mayFollow b → r.step none b = .whole v false := by
  obtain ⟨n, hstage⟩ : ∃ n, r.stage = .numeral n := by
    unfold Reading.finish at hv
    split at hv
    case h_1 n hstage => exact ⟨n, hstage⟩
    all_goals cases hv
  unfold Reading.finish at hv
  rw [hstage] at hv
  dsimp only at hv
  split at hv
  case isFalse => cases hv
  case isTrue hwhole =>
    cases h with
    | unclosed digits h =>
      exfalso
      rcases h with hwithin | hquoted
      · rcases hwithin.endNumeral n with ⟨-, r', hr', -, hafter⟩ | ⟨-, f, hf⟩
        · rw [hr'] at hv
          rcases hafter with hafter | hafter
          · simp [hafter] at hv
          · simp [hafter] at hv
        · rw [hf] at hv
          cases hv
      · obtain ⟨q, hq⟩ := hquoted.stage
        cases hq.symm.trans hstage
    | word h =>
      obtain ⟨rest, meaning, hword, -⟩ := h.stage
      cases hword.symm.trans hstage
    | number h =>
      have hend := h.endNumeral n
      cases hvalue : n.value with
      | none =>
        rw [hend, hvalue] at hv
        cases hv
      | some number =>
        rw [hvalue] at hend
        rw [hend] at hv
        obtain rfl := Except.ok.inj hv
        refine ⟨h, rfl, fun b hb => ?_⟩
        unfold step
        rw [hstage]
        dsimp only
        rw [Numeral.step_foreign hb, if_pos hwhole]
        dsimp only
        rw [hend]

end Reading

/-! ### A document in a stream -/

/-- Whether the bytes after a document show that it is complete: they need not where its own last
    byte does. -/
def IsClear (d : Json) (rest : List UInt8) : Prop :=
  d.showsEnd ∨ ∀ b ∈ rest.head?, Cursor.mayFollow b

/-- A document that has begun, and of which there are no more bytes than these. -/
structure Unfinished (text : List UInt8) : Prop where
  tight : ∃ b ∈ text.head?, isSpace b = false
  read : ∃ f, Json.read text = .error f ∧ f.fault.isEnd

/-- A text that is no document and never will be one, and that does not begin with one. -/
structure Undecodable (text : List UInt8) : Prop where
  tight : ∃ b ∈ text.head?, isSpace b = false
  read : ∃ f, Json.read text = .error f ∧ f.fault.isEnd = false
  none : ∀ first rest d, first ++ rest = text → Json.read first = .ok d → ¬ d.IsClear rest

namespace Cursor

theorem scan_cons {c c' : Cursor} {b : UInt8} (h : c.step b = ⟨[], some c'⟩) (rest : List UInt8) :
    c.scan (b :: rest) = c'.scan rest := by
  rw [scan, h]
  rfl

theorem scan_broken {c : Cursor} {b : UInt8} (h : c.step b = ⟨[], none⟩) (rest : List UInt8) :
    c.scan (b :: rest) = ([], .broken) := by
  rw [scan, h]

theorem scan_spaces {gap : List UInt8} (h : ∀ b ∈ gap, isSpace b) (rest : List UInt8) :
    between.scan (gap ++ rest) = between.scan rest := by
  induction gap with
  | nil => rfl
  | cons b gap ih =>
    obtain ⟨hb, hgap⟩ := List.forall_mem_cons.mp h
    have hstep : between.step b = ⟨[], some between⟩ := by simp [step, stepBetween, hb]
    rw [List.cons_append, scan_cons hstep, ih hgap]

/-- A byte that follows a document is read on its own. -/
theorem scan_following {c : Cursor} {b : UInt8} (h : c.step b = ⟨[v], stepBetween b⟩)
    (rest : List UInt8) :
    c.scan (b :: rest) = (v :: (between.scan (b :: rest)).1, (between.scan (b :: rest)).2) := by
  rw [scan, scan, h]
  simp only [step]
  cases stepBetween b <;> rfl

theorem step_of_word {seen : List UInt8} {b : UInt8} (hv : v.isWord)
    (h : r.step none b = .whole v true) : (inside seen r).step b = ⟨[], some (afterWord v)⟩ := by
  simp only [step, h]
  cases v with
  | null | bool => rfl
  | number | string | array | object => cases hv

theorem scan_used {seen : List UInt8} {b : UInt8} (h : r.step none b = .whole v true)
    (hv : v.showsEnd ∨ v.isWord) {rest : List UInt8} (hclear : v.IsClear rest) :
    (inside seen r).scan (b :: rest) = (v :: (between.scan rest).1, (between.scan rest).2) := by
  rcases hv with hshown | hword
  · rw [scan, step_of_whole hshown h]
    rfl
  · rw [scan_cons (step_of_word hword h)]
    cases rest with
    | nil => rfl
    | cons c rest =>
      have hfollow : mayFollow c := hclear.resolve_left (by simp [showsEnd_of_isWord hword]) c rfl
      exact scan_following (by simp only [step, hfollow, if_true]) rest

/-- A word must not go on. -/
theorem scan_unclear (seen : List UInt8) {b : UInt8} (h : r.step none b = .whole v true)
    (hv : v.showsEnd ∨ v.isWord) {rest : List UInt8} (hclear : ¬ v.IsClear rest) :
    (inside seen r).scan (b :: rest) = ([], .broken) ∧
      ∃ c more, rest = c :: more ∧ ¬ mayFollow c := by
  have hword : v.isWord := hv.resolve_left fun hshown => hclear (.inl hshown)
  cases rest with
  | nil => exact absurd (.inr nofun) hclear
  | cons c more =>
    have hforeign : ¬ mayFollow c := fun hfollow => hclear (.inr (by simpa using hfollow))
    have hbroken : (afterWord v).step c = ⟨[], none⟩ := by simp [step, hforeign]
    rw [scan_cons (step_of_word hword h), scan_broken hbroken]
    exact ⟨rfl, c, more, rfl, hforeign⟩

theorem scan_unused {seen : List UInt8} {b : UInt8} (h : r.step none b = .whole v false)
    (hb : mayFollow b) (rest : List UInt8) :
    (inside seen r).scan (b :: rest) =
      (v :: (between.scan (b :: rest)).1, (between.scan (b :: rest)).2) :=
  scan_following (by simp only [step, h, hb, if_true]) rest

end Cursor

/-- What becomes of a document that has begun: what reading the bytes on their own makes of it, and
    how the reader of the stream goes on. -/
inductive Fate (r : Reading) (seen bytes : List UInt8) : List Json × Tail → Prop where
  | unfinished (f : Failure) (read : readFrom none r seen bytes = .error f) (isEnd : f.fault.isEnd) :
      Fate r seen bytes ([], .pending (seen.reverse ++ bytes))
  | document (first rest : List UInt8) (d : Json) (cut : first ++ rest = bytes)
      (read : readFrom none r seen first = .ok d) (clear : d.IsClear rest)
      (tight : ∀ b ∈ first.getLast?, isSpace b = false) (atOnce : first = [] → r.InNumber)
      (early : ∀ f, readFrom none r seen bytes = .error f → f.fault.isEnd = false) :
      Fate r seen bytes (d :: (Cursor.between.scan rest).1, (Cursor.between.scan rest).2)
  | undecodable (f : Failure) (read : readFrom none r seen bytes = .error f)
      (early : f.fault.isEnd = false) : Fate r seen bytes ([], .broken)

theorem onlySpace_early {seen bytes : List UInt8} {f : Failure}
    (h : onlySpace v seen bytes = .error f) : f.fault.isEnd = false := by
  induction bytes generalizing seen with
  | nil => cases h
  | cons b bytes ih =>
    unfold onlySpace at h
    split at h
    · exact ih h
    · cases h
      rfl

theorem onlySpace_cons {b : UInt8} (hb : isSpace b = false) (seen bytes : List UInt8) :
    onlySpace v seen (b :: bytes) =
      .error (Failure.after .trailingCharacters (b :: seen).reverse) := by
  rw [onlySpace, if_neg (by simp [hb])]

theorem isSpace_of_not_mayFollow {b : UInt8} (hb : ¬ Cursor.mayFollow b) : isSpace b = false := by
  rw [Bool.eq_false_iff]
  exact fun hspace => hb (Cursor.mayFollow_of_isSpace hspace)

/-- One byte further, a document that is not complete has the same fate. -/
theorem Fate.cons {seen bytes : List UInt8} {b : UInt8} {result : List Json × Tail}
    (hstep : r.step none b = .more r') (htight : r'.InNumber → isSpace b = false)
    (h : Fate r' (b :: seen) bytes result) : Fate r seen (b :: bytes) result := by
  have hread : ∀ bytes, readFrom none r seen (b :: bytes) = readFrom none r' (b :: seen) bytes := by
    intro bytes
    rw [readFrom, hstep]
  cases h with
  | unfinished f h hend =>
    have hall : Fate r seen (b :: bytes) ([], .pending (seen.reverse ++ b :: bytes)) :=
      .unfinished f ((hread bytes).trans h) hend
    simpa using hall
  | document first rest d cut h clear tight atOnce early =>
    refine .document (b :: first) rest d (by rw [List.cons_append, cut]) ((hread first).trans h)
      clear ?_ nofun fun f hf => early f ((hread bytes).symm.trans hf)
    cases first with
    | nil => simpa using htight (atOnce rfl)
    | cons c first => simpa using tight
  | undecodable f h early => exact .undecodable f ((hread bytes).trans h) early

/-- The last byte of a document completes it, unless it goes on as none may. -/
theorem Fate.of_last {seen rest : List UInt8} {b : UInt8} (hstep : r.step none b = .whole v true)
    (hshown : v.showsEnd ∨ v.isWord) (htight : isSpace b = false) :
    Fate r seen (b :: rest) ((Cursor.inside seen r).scan (b :: rest)) := by
  have hread : ∀ bytes, readFrom none r seen (b :: bytes) = onlySpace v (b :: seen) bytes := by
    intro bytes
    rw [readFrom, hstep]
  by_cases hclear : v.IsClear rest
  · rw [Cursor.scan_used hstep hshown hclear]
    refine .document [b] rest v rfl (hread []) hclear (by simpa using htight) (by simp) ?_
    exact fun f hf => onlySpace_early ((hread rest).symm.trans hf)
  · obtain ⟨hbroken, c, more, rfl, hforeign⟩ := Cursor.scan_unclear seen hstep hshown hclear
    have hspace := isSpace_of_not_mayFollow hforeign
    rw [hbroken]
    exact .undecodable _ ((hread _).trans (onlySpace_cons hspace _ _)) rfl

/-- The byte after a number completes it, unless it may not follow one. -/
theorem Fate.of_after {seen rest : List UInt8} {b : UInt8} (hstep : r.step none b = .whole v false)
    (hnumber : r.InNumber) (hfinish : r.finish = .ok v) :
    Fate r seen (b :: rest) ((Cursor.inside seen r).scan (b :: rest)) := by
  have hread : readFrom none r seen (b :: rest) = onlySpace v seen (b :: rest) := by
    rw [readFrom, hstep]
  by_cases hfollow : Cursor.mayFollow b
  · have hnow : readFrom none r seen [] = .ok v := by rw [readFrom, hfinish]
    rw [Cursor.scan_unused hstep hfollow]
    refine .document [] (b :: rest) v rfl hnow (.inr ?_) (by simp) (fun _ => hnumber) ?_
    · simpa using hfollow
    · exact fun f hf => onlySpace_early (hread.symm.trans hf)
  · have hbroken : (Cursor.inside seen r).step b = ⟨[], none⟩ := by
      simp [Cursor.step, hstep, hfollow]
    have hspace := isSpace_of_not_mayFollow hfollow
    rw [Cursor.scan_broken hbroken]
    exact .undecodable _ (hread.trans (onlySpace_cons hspace _ _)) rfl

/-- At the end of the bytes only a number is complete. -/
theorem Reading.Begun.fate_nil (h : r.Begun) (seen : List UInt8) :
    Fate r seen [] ((Cursor.inside seen r).scan []) := by
  rw [Cursor.scan, Cursor.finish]
  cases hfinish : r.finish with
  | ok v =>
    have hread : readFrom none r seen [] = .ok v := by rw [readFrom, hfinish]
    refine .document [] [] v rfl hread (.inr (by simp)) (by simp)
      (fun _ => (h.finish hfinish).1) ?_
    intro f hf
    cases hread.symm.trans hf
  | error f =>
    have hread : readFrom none r seen [] = .error (Failure.after f seen.reverse) := by
      rw [readFrom, hfinish]
    dsimp only
    split
    case isTrue hend => simpa using Fate.unfinished _ hread hend
    case isFalse hend => exact .undecodable _ hread (Bool.eq_false_iff.mpr hend)

theorem Reading.Begun.fate (h : r.Begun) (seen bytes : List UInt8) :
    Fate r seen bytes ((Cursor.inside seen r).scan bytes) := by
  induction bytes generalizing r seen with
  | nil => exact h.fate_nil seen
  | cons b rest ih =>
    have hahead := h.ahead b
    cases hstep : r.step none b with
    | more r' =>
      rw [hstep] at hahead
      cases hahead with
      | more _ hbegun htight =>
        have hinside : (Cursor.inside seen r).step b = ⟨[], some (.inside (b :: seen) r')⟩ := by
          simp only [Cursor.step, hstep]
        rw [Cursor.scan_cons hinside]
        exact (ih hbegun (b :: seen)).cons hstep htight
    | whole v used =>
      rw [hstep] at hahead
      cases hahead with
      | last _ hshown htight => exact .of_last hstep hshown htight
      | after _ hnumber _ hfinish => exact .of_after hstep hnumber hfinish
    | stuck f used =>
      rw [hstep] at hahead
      cases hahead with
      | stuck _ _ hearly =>
        have hbroken : (Cursor.inside seen r).step b = ⟨[], none⟩ := by
          simp only [Cursor.step, hstep]
        rw [Cursor.scan_broken hbroken]
        exact .undecodable _ (by rw [readFrom, hstep]) hearly

/-- A document that reading its text on its own finds is found in the stream. -/
theorem Reading.Begun.scan_of_read (h : r.Begun) {seen first rest : List UInt8}
    (hread : readFrom none r seen first = .ok d) (hclear : d.IsClear rest) :
    (Cursor.inside seen r).scan (first ++ rest) =
      (d :: (Cursor.between.scan rest).1, (Cursor.between.scan rest).2) := by
  induction first generalizing r seen with
  | nil =>
    obtain ⟨-, hhidden, hended⟩ := h.finish (readFrom_nil hread)
    cases rest with
    | nil =>
      rw [List.append_nil, Cursor.scan, Cursor.finish, readFrom_nil hread]
      rfl
    | cons b rest =>
      have hfollow : Cursor.mayFollow b := hclear.resolve_left (by simp [hhidden]) b rfl
      exact Cursor.scan_unused (hended b hfollow) hfollow rest
  | cons b first ih =>
    have hahead := h.ahead b
    rcases readFrom_cons hread with ⟨r', hr', hread'⟩ | ⟨hw, hspaces⟩ | ⟨hw, hspaces⟩
    · rw [hr'] at hahead
      cases hahead with
      | more _ hbegun _ =>
        have hinside : (Cursor.inside seen r).step b = ⟨[], some (.inside (b :: seen) r')⟩ := by
          simp only [Cursor.step, hr']
        rw [List.cons_append, Cursor.scan_cons hinside]
        exact ih hbegun hread'
    · rw [hw] at hahead
      have hlater : d.IsClear (first ++ rest) := by
        cases first with
        | nil => exact hclear
        | cons c first =>
          have hfollow := Cursor.mayFollow_of_isSpace (hspaces c List.mem_cons_self)
          exact .inr (by simpa using hfollow)
      cases hahead with
      | last _ hshown _ =>
        rw [List.cons_append, Cursor.scan_used hw hshown hlater, Cursor.scan_spaces hspaces]
    · have hfollow := Cursor.mayFollow_of_isSpace (hspaces b List.mem_cons_self)
      rw [List.cons_append, Cursor.scan_unused hw hfollow, ← List.cons_append,
        Cursor.scan_spaces hspaces]

/-! ### A stream -/

/-- What bytes consist of: documents, each clear of what comes after it, and at last nothing but
    whitespace, a document that is not finished or one that cannot be decoded. -/
inductive Splits : List UInt8 → List Passage → Tail → Prop where
  | blank {gap : List UInt8} (space : ∀ b ∈ gap, isSpace b) : Splits gap [] (.pending [])
  | unfinished {gap text : List UInt8} (space : ∀ b ∈ gap, isSpace b) (begun : Unfinished text) :
      Splits (gap ++ text) [] (.pending text)
  | undecodable {gap text : List UInt8} (space : ∀ b ∈ gap, isSpace b) (bad : Undecodable text) :
      Splits (gap ++ text) [] .broken
  | passage (p : Passage) {rest : List UInt8} {found : List Passage} {tail : Tail}
      (clear : p.document.IsClear rest) (more : Splits rest found tail) :
      Splits (p.bytes ++ rest) (p :: found) tail

/-- A text that starts with the first byte of a document is read from within it. -/
theorem read_cons {b : UInt8} (hstep : Reading.start.step none b = .more r) (rest : List UInt8) :
    read (b :: rest) = readFrom none r [b] rest := by
  rw [read, readFrom, hstep]

theorem documents_cons {b : UInt8} (hb : isSpace b = false)
    (hstep : Reading.start.step none b = .more r) (rest : List UInt8) :
    documents (b :: rest) = (Cursor.inside [b] r).scan rest := by
  have hinside : Cursor.between.step b = ⟨[], some (.inside [b] r)⟩ := by
    simp [Cursor.step, Cursor.stepBetween, hb, hstep]
  rw [documents, Cursor.scan_cons hinside]

theorem head_cases {text : List UInt8} (h : ∃ b ∈ text.head?, isSpace b = false) :
    ∃ b, isSpace b = false ∧ ∃ more, text = b :: more := by
  obtain ⟨b, hhead, hb⟩ := h
  cases text with
  | nil => cases hhead
  | cons c more => exact ⟨b, hb, more, by rw [Option.some.inj hhead]⟩

theorem documents_of_read {first rest : List UInt8} (hhead : ∃ b ∈ first.head?, isSpace b = false)
    (hread : read first = .ok d) (hclear : d.IsClear rest) :
    documents (first ++ rest) = (d :: (documents rest).1, (documents rest).2) := by
  obtain ⟨b, hb, first, rfl⟩ := head_cases hhead
  rcases Reading.start_ahead hb with ⟨r, hr, hbegun⟩ | ⟨f, used, hstuck, -⟩
  · rw [read_cons hr] at hread
    rw [List.cons_append, documents_cons hb hr]
    exact hbegun.scan_of_read hread hclear
  · rw [read, readFrom, hstuck] at hread
    cases hread

theorem undecodable_of_documents {b : UInt8} (hb : isSpace b = false) {text : List UInt8}
    {f : Failure} (hread : read (b :: text) = .error f) (hearly : f.fault.isEnd = false)
    (hdocuments : documents (b :: text) = ([], .broken)) : Undecodable (b :: text) := by
  refine ⟨⟨b, rfl, hb⟩, ⟨f, hread, hearly⟩, fun first rest d hcut hfirst hclear => ?_⟩
  have hhead : ∃ c ∈ first.head?, isSpace c = false := by
    cases first with
    | nil => cases hfirst
    | cons c first =>
      obtain rfl := (List.cons.inj hcut).1
      exact ⟨c, rfl, hb⟩
  have hfound := documents_of_read hhead hfirst hclear
  rw [hcut, hdocuments] at hfound
  cases hfound

/-- What a text that does not begin with whitespace begins with, and what the reader of documents
    makes of it. -/
theorem documents_cases {text : List UInt8} (hhead : ∃ b ∈ text.head?, isSpace b = false) :
    (Unfinished text ∧ documents text = ([], .pending text)) ∨
      (¬ Unfinished text ∧
        ∃ (p : Passage) (rest : List UInt8), p.text ++ rest = text ∧ p.document.IsClear rest) ∨
      Undecodable text ∧ documents text = ([], .broken) := by
  obtain ⟨b, hb, text, rfl⟩ := head_cases hhead
  rcases Reading.start_ahead hb with ⟨r, hr, hbegun⟩ | ⟨f, used, hstuck, hearly⟩
  · have hfate := hbegun.fate [b] text
    rw [← documents_cons hb hr] at hfate
    generalize hdocuments : documents (b :: text) = result at hfate
    cases hfate with
    | unfinished f hread hend =>
      exact .inl ⟨⟨⟨b, rfl, hb⟩, f, (read_cons hr text).trans hread, hend⟩, rfl⟩
    | document first rest d hcut hread hclear htight hatOnce hearly =>
      refine .inr (.inl ⟨fun hopen => ?_, ⟨[], b :: first, d, nofun, ⟨⟨b, rfl, hb⟩, ?_⟩,
        (read_cons hr first).trans hread⟩, rest, congrArg (b :: ·) hcut, hclear⟩)
      · obtain ⟨f, hf, hend⟩ := hopen.read
        rw [hearly f ((read_cons hr text).symm.trans hf)] at hend
        cases hend
      · cases first with
        | nil => simpa using hb
        | cons c first => simpa using htight
    | undecodable f hread hearly =>
      have hread' := (read_cons hr text).trans hread
      exact .inr (.inr ⟨undecodable_of_documents hb hread' hearly hdocuments, rfl⟩)
  · have hbroken : documents (b :: text) = ([], .broken) := by
      refine Cursor.scan_broken ?_ text
      simp [Cursor.step, Cursor.stepBetween, hb, hstuck]
    have hread : read (b :: text) = .error (Failure.after f (if used then [b] else []).reverse) := by
      rw [read, readFrom, hstuck]
    exact .inr (.inr ⟨undecodable_of_documents hb hread hearly hbroken, hbroken⟩)

theorem Unfinished.not_undecodable {text : List UInt8} (h : Unfinished text) :
    ¬ Undecodable text := by
  intro hbad
  obtain ⟨f, hread, hend⟩ := h.read
  obtain ⟨f', hread', hearly⟩ := hbad.read
  rw [Except.error.inj (hread.symm.trans hread'), hearly] at hend
  cases hend

theorem Unfinished.documents {text : List UInt8} (h : Unfinished text) :
    Json.documents text = ([], .pending text) := by
  rcases documents_cases h.tight with ⟨-, hdocuments⟩ | ⟨hclosed, -⟩ | ⟨hbad, -⟩
  · exact hdocuments
  · exact absurd h hclosed
  · exact absurd hbad h.not_undecodable

theorem Undecodable.documents {text : List UInt8} (h : Undecodable text) :
    Json.documents text = ([], .broken) := by
  rcases documents_cases h.tight with ⟨hopen, -⟩ | ⟨-, p, rest, hcut, hclear⟩ | ⟨-, hdocuments⟩
  · exact absurd h hopen.not_undecodable
  · exact absurd hclear (h.none p.text rest p.document hcut p.read)
  · exact hdocuments

/-- The bytes of an unfinished document do not begin with a whole one. -/
theorem Unfinished.none {text first rest : List UInt8} (h : Unfinished text)
    (hcut : first ++ rest = text) (hread : Json.read first = .ok d) : ¬ d.IsClear rest := by
  intro hclear
  have hhead : ∃ b ∈ first.head?, isSpace b = false := by
    cases first with
    | nil => cases hread
    | cons b first =>
      subst hcut
      exact h.tight
  have hfound := documents_of_read hhead hread hclear
  rw [hcut, h.documents] at hfound
  cases hfound

theorem documents_of_splits {bytes : List UInt8} {found : List Passage} {tail : Tail}
    (h : Splits bytes found tail) : documents bytes = (found.map Passage.document, tail) := by
  induction h with
  | blank hspace =>
    have hscan := Cursor.scan_spaces hspace []
    rwa [List.append_nil] at hscan
  | unfinished hspace hopen => exact (Cursor.scan_spaces hspace _).trans hopen.documents
  | undecodable hspace hbad => exact (Cursor.scan_spaces hspace _).trans hbad.documents
  | passage p hclear hmore ih =>
    rw [Passage.bytes, List.append_assoc, documents, Cursor.scan_spaces p.gap_space]
    exact (documents_of_read p.tight.1 p.read hclear).trans (by rw [ih, List.map_cons])

theorem exists_gap (bytes : List UInt8) :
    ∃ gap text, gap ++ text = bytes ∧ (∀ b ∈ gap, isSpace b) ∧
      (text = [] ∨ ∃ b ∈ text.head?, isSpace b = false) := by
  induction bytes with
  | nil => exact ⟨[], [], rfl, nofun, .inl rfl⟩
  | cons b bytes ih =>
    cases hb : isSpace b with
    | true =>
      obtain ⟨gap, text, rfl, hgap, htext⟩ := ih
      exact ⟨b :: gap, text, rfl, List.forall_mem_cons.mpr ⟨hb, hgap⟩, htext⟩
    | false => exact ⟨[], b :: bytes, rfl, nofun, .inr ⟨b, rfl, hb⟩⟩

theorem exists_splits (bytes : List UInt8) : ∃ found tail, Splits bytes found tail := by
  induction hlength : bytes.length using Nat.strong_induction_on generalizing bytes with
  | h n ih =>
    obtain ⟨gap, text, rfl, hgap, rfl | hhead⟩ := exists_gap bytes
    · rw [List.append_nil]
      exact ⟨[], _, .blank hgap⟩
    · rcases documents_cases hhead with ⟨hopen, -⟩ | ⟨-, p, rest, rfl, hclear⟩ | ⟨hbad, -⟩
      · exact ⟨[], _, .unfinished hgap hopen⟩
      · have hshort : rest.length < n := by
          obtain ⟨b, -, more, hp⟩ := head_cases p.tight.1
          rw [← hlength, hp]
          simp only [List.length_append, List.length_cons]
          omega
        obtain ⟨found, tail, hmore⟩ := ih rest.length hshort rest rfl
        have hall := Splits.passage { p with gap, gap_space := hgap } hclear hmore
        rw [Passage.bytes, List.append_assoc] at hall
        exact ⟨_, tail, hall⟩
      · exact ⟨[], _, .undecodable hgap hbad⟩

/-- **Bytes are split into documents in the one way there is.** -/
theorem documents_eq_iff {bytes : List UInt8} {docs : List Json} {tail : Tail} :
    documents bytes = (docs, tail) ↔
      ∃ found, Splits bytes found tail ∧ found.map Passage.document = docs := by
  constructor
  · intro h
    obtain ⟨found, tail', hsplits⟩ := exists_splits bytes
    obtain ⟨rfl, rfl⟩ := Prod.mk.inj ((documents_of_splits hsplits).symm.trans h)
    exact ⟨found, hsplits, rfl⟩
  · rintro ⟨found, hsplits, rfl⟩
    exact documents_of_splits hsplits

/-! ### What a stretch consists of -/

/-- The passages with more whitespace before the first, or the whitespace itself if there is none. -/
theorem exists_padded {gap : List UInt8} (hgap : ∀ b ∈ gap, isSpace b) (found : List Passage)
    {last : List UInt8} (hlast : ∀ b ∈ last, isSpace b) :
    ∃ (padded : List Passage) (rest : List UInt8),
      padded.map Passage.document = found.map Passage.document ∧ (∀ b ∈ rest, isSpace b) ∧
        gap ++ ((found.map Passage.bytes).flatten ++ last) =
          (padded.map Passage.bytes).flatten ++ rest := by
  cases found with
  | nil =>
    exact ⟨[], gap ++ last, rfl, fun b hb => (List.mem_append.mp hb).elim (hgap b) (hlast b), rfl⟩
  | cons p found =>
    have hboth : ∀ b ∈ gap ++ p.gap, isSpace b := fun b hb =>
      (List.mem_append.mp hb).elim (hgap b) (p.gap_space b)
    refine ⟨{ p with gap := gap ++ p.gap, gap_space := hboth } :: found, last, rfl, hlast, ?_⟩
    simp [Passage.bytes]

/-- Bytes that all can be decoded are the documents with whitespace between them, and what is
    left. -/
theorem Splits.accounts {bytes : List UInt8} {found : List Passage} {left : List UInt8}
    (h : Splits bytes found (.pending left)) :
    (left = [] ∨ Unfinished left) ∧ ∃ gap, (∀ b ∈ gap, isSpace b) ∧
      bytes = (found.map Passage.bytes).flatten ++ gap ++ left := by
  generalize htail : Tail.pending left = tail at h
  induction h with
  | blank hspace =>
    obtain rfl := Tail.pending.inj htail
    exact ⟨.inl rfl, _, hspace, (List.append_nil _).symm⟩
  | unfinished hspace hopen =>
    obtain rfl := Tail.pending.inj htail
    exact ⟨.inr hopen, _, hspace, rfl⟩
  | undecodable => cases htail
  | passage p _ _ ih =>
    obtain ⟨hleft, gap, hgap, rfl⟩ := ih htail
    exact ⟨hleft, gap, hgap, by simp⟩

end ClusterAgent.Json
