/-
  ClusterAgent/Proofs/Json/Streams.lean
  =====================================
  **A stream of documents, cut anywhere.**

  `Cursor.feed` is the reader of a stream without its end.  Strings, lists and objects show
  their own end, so wherever the text of one is cut, the reader stands where nothing more is
  told by the end of the bytes (`feed_text`).  Whatever prefix of a stream of objects it is
  given, it returns the first so many of the objects, all those at least whose texts it was
  given in full (`feed_texts`).  There a reader can be put aside: the bytes it would name as
  unfinished lead a fresh one back to the same place (`Cursor.Rests`).
-/
import ClusterAgent.Proofs.Json.Interior
import ClusterAgent.Json.Documents

namespace ClusterAgent.Json

open Reading (numbersWithin isSpace)

variable {r : Reading} {d : Json}

/-- Whether the last byte of a document's text tells that the document is complete.  After a word
    or a number the next byte tells it. -/
def showsEnd : Json → Bool
  | .string _ | .array _ | .object _ => true
  | _ => false

theorem showsEnd_of_isContainer (h : d.isContainer) : d.showsEnd := by
  cases d with
  | array | object => rfl
  | null | bool | number | string => cases h

theorem showsEnd_of_isObject (h : d.isObject) : d.showsEnd := by
  cases d with
  | object => rfl
  | null | bool | number | string | array => cases h

/-! ### Words and numbers -/

namespace Reading

/-- The reader stands within a word or a number that is the whole document. -/
structure Scalar (r : Reading) : Prop where
  stack : r.stack = []
  stage : (∃ rest meaning, r.stage = .word rest meaning ∧ meaning.showsEnd = false) ∨
    ∃ n, r.stage = .numeral n

/-- What a step does that starts within a scalar: it stays there or ends it. -/
def Step.OfScalar : Step → Prop
  | .more r => r.Scalar
  | .whole v _ => v.showsEnd = false
  | .stuck _ _ => True

theorem Scalar.deliver (h : r.Scalar) {v : Json} (hv : v.showsEnd = false) (used : Bool) :
    (r.deliver v used).OfScalar := by
  unfold Reading.deliver
  rw [h.stack]
  exact hv

theorem Scalar.endNumeral (h : r.Scalar) (n : Numeral) :
    (∃ v, r.endNumeral n = .whole v false ∧ v.showsEnd = false) ∨
      ∃ f, r.endNumeral n = .stuck f false := by
  unfold Reading.endNumeral Reading.deliver
  rw [h.stack]
  split
  · exact .inl ⟨_, rfl, rfl⟩
  · cases n.value with
    | none => exact .inr ⟨_, rfl⟩
    | some v => exact .inl ⟨_, rfl, rfl⟩

theorem Scalar.step (h : r.Scalar) (b : UInt8) : (r.step none b).OfScalar := by
  unfold Reading.step
  rcases h.stage with ⟨rest, meaning, hstage, hmeaning⟩ | ⟨n, hstage⟩
  · rw [hstage]
    unfold stepPlain
    rw [hstage]
    dsimp only
    split
    · trivial
    · split
      · exact h.deliver hmeaning true
      · trivial
    · split
      · exact ⟨h.stack, .inl ⟨_, _, rfl, hmeaning⟩⟩
      · trivial
  · rw [hstage]
    dsimp only
    split
    · exact ⟨h.stack, .inr ⟨_, rfl⟩⟩
    · trivial
    · rcases h.endNumeral n with ⟨v, hv, hends⟩ | ⟨f, hstuck⟩
      · rw [hv]
        exact hends
      · rw [hstuck]
        trivial

theorem Scalar.finish (h : r.Scalar) (hd : r.finish = .ok d) : d.showsEnd = false := by
  unfold Reading.finish at hd
  rcases h.stage with ⟨rest, meaning, hstage, -⟩ | ⟨n, hstage⟩
  · rw [hstage] at hd
    cases hd
  · rw [hstage] at hd
    dsimp only at hd
    split at hd
    · rcases h.endNumeral n with ⟨v, hv, hends⟩ | ⟨f, hstuck⟩
      · rw [hv] at hd
        rwa [← Except.ok.inj hd]
      · rw [hstuck] at hd
        cases hd
    · cases hd

theorem Scalar.read {seen rest : List UInt8} (h : r.Scalar)
    (hread : readFrom none r seen rest = .ok d) : d.showsEnd = false := by
  induction rest generalizing r seen with
  | nil => exact h.finish (readFrom_nil hread)
  | cons b rest ih =>
    have hstep := h.step b
    rcases readFrom_cons hread with ⟨r', hr', hread'⟩ | ⟨hw, -⟩ | ⟨hw, -⟩
    · rw [hr'] at hstep
      exact ih hstep hread'
    · rwa [hw] at hstep
    · rwa [hw] at hstep

/-! ### Strings, lists and objects -/

/-- The reader stands within a string that is the whole document. -/
structure Quoted (r : Reading) : Prop where
  skim : r.skim = false
  stack : r.stack = []
  stage : ∃ q, r.stage = .text q

/-- The reader stands within a document that shows its own end. -/
def Unclosed (r : Reading) (digits : Nat) : Prop :=
  r.Within digits ∨ r.Quoted

/-- What a step does that starts within such a document: it stays there or ends it. -/
def Step.Onward (digits : Reading → Nat) : Step → Prop
  | .more r => r.Unclosed (digits r)
  | .whole v used => used = true ∧ v.showsEnd
  | .stuck _ _ => True

theorem Quoted.step (h : r.Quoted) (b : UInt8) (k : Reading → Nat) :
    (r.step none b).Onward k := by
  obtain ⟨q, hstage⟩ := h.stage
  unfold Reading.step
  rw [hstage]
  unfold stepPlain
  rw [hstage]
  dsimp only
  split
  · exact .inr ⟨h.skim, h.stack, _, rfl⟩
  · trivial
  · split
    · unfold Reading.deliver
      rw [h.stack]
      exact ⟨rfl, rfl⟩
    · trivial

theorem Unclosed.step {digits : Nat} (h : r.Unclosed digits) (b : UInt8) :
    (r.step none b).Onward (·.digitsAfter digits b) := by
  rcases h with h | h
  · have hinside := h.step b
    cases hstep : r.step none b with
    | more r' =>
      rw [hstep] at hinside
      exact .inl hinside
    | whole v used =>
      rw [hstep] at hinside
      exact ⟨hinside.1, showsEnd_of_isContainer hinside.2⟩
    | stuck f used => trivial
  · exact h.step b _

/-- Wherever such a document is cut, its end is what is missing. -/
theorem Unclosed.finish {digits : Nat} {seen rest : List UInt8} (h : r.Unclosed digits)
    (hdigits : digits ≤ Numeral.digitLimit) (hread : readFrom none r seen rest = .ok d)
    (hnumbers : r.numbersWithin Numeral.digitLimit digits rest) :
    ∃ f, r.finish = .error f ∧ f.isEnd := by
  rcases h with h | h
  · exact h.finish hdigits hread hnumbers
  · obtain ⟨q, hstage⟩ := h.stage
    unfold Reading.finish
    rw [hstage]
    exact ⟨_, rfl, rfl⟩

/-! ### The first byte -/

theorem start_space {b : UInt8} (hb : isSpace b) : start.step none b = .more start := by
  simp [step, stepPlain, start, hb]

/-- The first byte of a document opens a list, an object or a string, or begins a scalar. -/
theorem start_step {b : UInt8} (hb : isSpace b = false) :
    (∃ r, start.step none b = .more r ∧ (r.Unclosed (r.digitsAfter 0 b) ∨ r.Scalar)) ∨
      ∃ f used, start.step none b = .stuck f used := by
  have hbegin : start.step none b = start.begin b := by
    simp [step, stepPlain, start, hb]
  rw [hbegin]
  unfold begin
  split
  · exact .inl ⟨_, rfl, .inl (.inl ⟨rfl, List.cons_ne_nil _ _, by simp⟩)⟩
  split
  · exact .inl ⟨_, rfl, .inl (.inl ⟨rfl, List.cons_ne_nil _ _, by simp⟩)⟩
  split
  · exact .inl ⟨_, rfl, .inl (.inr ⟨rfl, rfl, _, rfl⟩)⟩
  split
  · exact .inl ⟨_, rfl, .inr ⟨rfl, .inl ⟨_, _, rfl, rfl⟩⟩⟩
  split
  · exact .inl ⟨_, rfl, .inr ⟨rfl, .inl ⟨_, _, rfl, rfl⟩⟩⟩
  split
  · exact .inl ⟨_, rfl, .inr ⟨rfl, .inl ⟨_, _, rfl, rfl⟩⟩⟩
  split
  · exact .inl ⟨_, rfl, .inr ⟨rfl, .inr ⟨_, rfl⟩⟩⟩
  · exact .inr ⟨_, _, rfl⟩

theorem start_ne_whole (b : UInt8) (v : Json) (used : Bool) :
    start.step none b ≠ .whole v used := by
  intro h
  cases hb : isSpace b with
  | true => cases (start_space hb).symm.trans h
  | false =>
    rcases start_step hb with ⟨r, hr, -⟩ | ⟨f, used', hstuck⟩
    · cases hr.symm.trans h
    · cases hstuck.symm.trans h

end Reading

/-! ### Feeding -/

namespace Cursor

/-- Reads bytes that are not the end of the stream: the documents that they complete, and where
    the reader stands then. -/
def feed (c : Cursor) : List UInt8 → Option (List Json × Cursor)
  | [] => some ([], c)
  | b :: rest =>
    match c.step b with
    | ⟨_, none⟩ => none
    | ⟨documents, some c⟩ => (c.feed rest).map fun p => (documents ++ p.1, p.2)

theorem feed_cons {c c' : Cursor} {b : UInt8} {documents : List Json}
    (h : c.step b = ⟨documents, some c'⟩) (rest : List UInt8) :
    c.feed (b :: rest) = (c'.feed rest).map fun p => (documents ++ p.1, p.2) := by
  rw [feed, h]

theorem feed_append (c : Cursor) (first rest : List UInt8) :
    c.feed (first ++ rest) =
      (c.feed first).bind fun p => (p.2.feed rest).map fun q => (p.1 ++ q.1, q.2) := by
  induction first generalizing c with
  | nil => simp [feed]
  | cons b first ih =>
    rw [List.cons_append, feed, feed]
    rcases c.step b with ⟨documents, _ | c'⟩
    · rfl
    · simp only [ih, Option.map_bind, Option.bind_map]
      congr 1
      funext p
      simp [Function.comp_def]

/-- What the reader makes of further bytes, from what it makes of all of them. -/
theorem feed_further {c c₁ c₂ : Cursor} {first rest : List UInt8} {docs₁ docs : List Json}
    (h : c.feed (first ++ rest) = some (docs, c₂)) (hfirst : c.feed first = some (docs₁, c₁)) :
    ∃ docs₂, c₁.feed rest = some (docs₂, c₂) ∧ docs₁ ++ docs₂ = docs := by
  rw [feed_append, hfirst, Option.bind_some] at h
  obtain ⟨⟨docs₂, c'⟩, hrest, heq⟩ := Option.map_eq_some_iff.mp h
  obtain ⟨hdocs, rfl⟩ := Prod.mk.inj heq
  exact ⟨docs₂, hrest, hdocs⟩

/-- At the end of the bytes the reader adds what that end tells. -/
theorem scan_of_feed {c c' : Cursor} {bytes : List UInt8} {documents : List Json}
    (h : c.feed bytes = some (documents, c')) :
    c.scan bytes = (documents ++ c'.finish.1, c'.finish.2) := by
  induction bytes generalizing c documents with
  | nil =>
    obtain ⟨rfl, rfl⟩ := Prod.mk.inj (Option.some.inj h)
    rfl
  | cons b rest ih =>
    unfold feed at h
    rw [scan]
    rcases hstep : c.step b with ⟨first, _ | next⟩
    · rw [hstep] at h
      cases h
    · rw [hstep] at h
      obtain ⟨⟨more, last⟩, hfeed, hp⟩ := Option.map_eq_some_iff.mp h
      obtain ⟨rfl, rfl⟩ := Prod.mk.inj hp
      simp [ih hfeed]

/-- The end of the bytes here tells only that some are still to come, and a fresh reader that is
    given those again gets to the same place. -/
structure Rests (c : Cursor) (bytes : List UInt8) : Prop where
  finish : c.finish = ([], .pending bytes)
  again : between.feed bytes = some ([], c)

theorem between_rests : between.Rests [] :=
  ⟨rfl, rfl⟩

theorem feed_spaces {bytes : List UInt8} (h : ∀ b ∈ bytes, isSpace b) :
    between.feed bytes = some ([], between) := by
  induction bytes with
  | nil => rfl
  | cons b rest ih =>
    obtain ⟨hb, hrest⟩ := List.forall_mem_cons.mp h
    rw [feed_cons (show between.step b = ⟨[], some between⟩ by simp [step, stepBetween, hb]),
      ih hrest]
    rfl

theorem step_of_whole {seen : List UInt8} {b : UInt8} {v : Json} (hv : v.showsEnd)
    (h : r.step none b = .whole v true) : (inside seen r).step b = ⟨[v], some between⟩ := by
  simp only [step, h]
  cases v with
  | string | array | object => rfl
  | null | bool | number => cases hv

/-! ### One text -/

/-- From within a document its text either ends with it or leaves the reader within. -/
theorem feed_inside (seen : List UInt8) {before first rest : List UInt8} {digits : Nat}
    (h : r.Unclosed digits) (hdigits : digits ≤ Numeral.digitLimit)
    (hread : readFrom none r before (first ++ rest) = .ok d)
    (hnumbers : r.numbersWithin Numeral.digitLimit digits (first ++ rest)) :
    (rest ≠ [] ∧ ∃ r', (inside seen r).feed first = some ([], inside (first.reverse ++ seen) r') ∧
        ∃ f, r'.finish = .error f ∧ f.isEnd) ∨
      (∀ b ∈ rest, isSpace b) ∧ (inside seen r).feed first = some ([d], between) := by
  induction first generalizing r seen before digits with
  | nil =>
    obtain ⟨f, hfinish, hend⟩ := h.finish hdigits hread hnumbers
    refine .inl ⟨?_, r, rfl, f, hfinish, hend⟩
    rintro rfl
    rw [readFrom_nil hread] at hfinish
    cases hfinish
  | cons b first ih =>
    have hinside := h.step b
    rcases readFrom_cons hread with ⟨r', hr', hread'⟩ | ⟨hw, hspaces⟩ | ⟨hw, -⟩
    · rw [hr'] at hinside
      obtain ⟨hdigits', hnumbers'⟩ := numbersWithin_cons hnumbers hr'
      have hstep : (inside seen r).step b = ⟨[], some (inside (b :: seen) r')⟩ := by
        simp only [step, hr']
      rw [feed_cons hstep]
      rcases ih (b :: seen) hinside hdigits' hread' hnumbers' with
        ⟨hrest, r'', hfeed, hend⟩ | ⟨hspaces, hfeed⟩
      · refine .inl ⟨hrest, r'', ?_, hend⟩
        simp [hfeed]
      · exact .inr ⟨hspaces, by simp [hfeed]⟩
    · rw [hw] at hinside
      refine .inr ⟨fun c hc => hspaces c (List.mem_append_right first hc), ?_⟩
      rw [feed_cons (step_of_whole hinside.2 hw),
        feed_spaces fun c hc => hspaces c (List.mem_append_left rest hc)]
      rfl
    · rw [hw] at hinside
      cases hinside.1

end Cursor

/-- A text that holds one object, in which no number has more digits than a reader that stops
    within it can take. -/
structure IsText (text : List UInt8) (d : Json) : Prop where
  read : Json.read text = .ok d
  object : d.isObject
  numbers : Reading.start.numbersWithin Numeral.digitLimit 0 text

/-- A document as it stands in a stream, with the whitespace before it. -/
structure Passage where
  gap : List UInt8
  text : List UInt8
  document : Json
  gap_space : ∀ b ∈ gap, isSpace b
  /-- The text begins and ends with the document. -/
  tight : (∃ b ∈ text.head?, isSpace b = false) ∧ ∀ b ∈ text.getLast?, isSpace b = false
  read : Json.read text = .ok document

def Passage.bytes (p : Passage) : List UInt8 :=
  p.gap ++ p.text

namespace Cursor

/-- From between two texts the next one either is complete, with nothing but whitespace to come, or
    leaves the reader where it can be put aside. -/
theorem feed_text {before first rest : List UInt8}
    (hread : readFrom none Reading.start before (first ++ rest) = .ok d) (hshown : d.showsEnd)
    (hnumbers : Reading.start.numbersWithin Numeral.digitLimit 0 (first ++ rest)) :
    (rest ≠ [] ∧ ∃ c, between.feed first = some ([], c) ∧ c.Rests (first.dropWhile isSpace)) ∨
      (∀ b ∈ rest, isSpace b) ∧ between.feed first = some ([d], between) := by
  induction first generalizing before with
  | nil =>
    refine .inl ⟨?_, between, rfl, between_rests⟩
    rintro rfl
    cases readFrom_nil hread
  | cons b first ih =>
    rcases readFrom_cons hread with ⟨r, hr, hread'⟩ | ⟨hw, -⟩ | ⟨hw, -⟩
    case inl =>
      obtain ⟨hdigits', hnumbers'⟩ := numbersWithin_cons hnumbers hr
      cases hb : isSpace b with
      | true =>
        obtain rfl := Reading.Step.more.inj ((Reading.start_space hb).symm.trans hr)
        have hstep : between.step b = ⟨[], some between⟩ := by simp [step, stepBetween, hb]
        rw [feed_cons hstep, List.dropWhile_cons_of_pos hb]
        rcases ih hread' hnumbers' with ⟨hrest, c, hfeed, hrests⟩ | ⟨hspaces, hfeed⟩
        · exact .inl ⟨hrest, c, by simp [hfeed], hrests⟩
        · exact .inr ⟨hspaces, by simp [hfeed]⟩
      | false =>
        have hstep : between.step b = ⟨[], some (inside [b] r)⟩ := by
          simp [step, stepBetween, hb, hr]
        have hunclosed : r.Unclosed (r.digitsAfter 0 b) := by
          rcases Reading.start_step hb with ⟨r', hr', hplace⟩ | ⟨f, used, hstuck⟩
          · obtain rfl := Reading.Step.more.inj (hr'.symm.trans hr)
            refine hplace.resolve_right fun hscalar => ?_
            rw [hscalar.read hread'] at hshown
            cases hshown
          · cases hstuck.symm.trans hr
        have hinside := feed_inside [b] hunclosed hdigits' hread' hnumbers'
        rcases hinside with ⟨hrest, r', hfeed, f, hfinish, hend⟩ | ⟨hspaces, hfeed⟩
        · have hagain : between.feed (b :: first) =
              some ([], inside (first.reverse ++ [b]) r') := by
            rw [feed_cons hstep, hfeed]
            rfl
          have hkept : (b :: first).dropWhile isSpace = b :: first :=
            List.dropWhile_cons_of_neg (by simp [hb])
          rw [hkept]
          refine .inl ⟨hrest, _, hagain, ?_, hagain⟩
          simp [finish, hfinish, hend]
        · refine .inr ⟨hspaces, ?_⟩
          rw [feed_cons hstep, hfeed]
          rfl
    all_goals exact absurd hw (Reading.start_ne_whole b _ _)

/-! ### One text after the other -/

/-- Any first bytes of a stream of objects give the first so many of them. -/
theorem feed_texts {texts : List (List UInt8)} {docs : List Json}
    (h : List.Forall₂ IsText texts docs) {bytes : List UInt8} (hbytes : bytes <+: texts.flatten) :
    ∃ n c pending, between.feed bytes = some (docs.take n, c) ∧ c.Rests pending ∧
      n ≤ docs.length ∧ ∀ i ≤ texts.length, (texts.take i).flatten <+: bytes → i ≤ n := by
  induction h generalizing bytes with
  | nil =>
    obtain rfl : bytes = [] := List.prefix_nil.mp hbytes
    exact ⟨0, between, [], rfl, between_rests, le_refl _, fun i hi _ => hi⟩
  | @cons text d texts docs htext _ ih =>
    by_cases hwhole : text <+: bytes
    case pos =>
      obtain ⟨rest, rfl⟩ := hwhole
      have hrest : rest <+: texts.flatten := by
        rw [List.flatten_cons] at hbytes
        exact (List.prefix_append_right_inj text).mp hbytes
      obtain ⟨n, c, pending, hfeed, hrests, hn, hprompt⟩ := ih hrest
      have hfirst : between.feed text = some ([d], between) := by
        have hread := htext.read
        have hnumbers := htext.numbers
        rw [← List.append_nil text] at hread hnumbers
        rcases feed_text hread (showsEnd_of_isObject htext.object) hnumbers with
          ⟨hne, -⟩ | ⟨-, hfeed⟩
        · exact absurd rfl hne
        · exact hfeed
      refine ⟨n + 1, c, pending, ?_, hrests, by simpa using hn, fun i hi hlead => ?_⟩
      · simp [feed_append, hfirst, hfeed]
      · rcases i with _ | i
        · omega
        · rw [List.take_succ_cons, List.flatten_cons] at hlead
          have hlater := hprompt i (by simpa using hi)
            ((List.prefix_append_right_inj text).mp hlead)
          omega
    case neg =>
      have hpart : bytes <+: text := by
        rw [List.flatten_cons] at hbytes
        exact (List.prefix_or_prefix_of_prefix hbytes (List.prefix_append _ _)).resolve_right hwhole
      obtain ⟨rest, rfl⟩ := hpart
      have hnone (i : Nat) (hlead : (((bytes ++ rest) :: texts).take i).flatten <+: bytes) :
          i = 0 := by
        rcases i with _ | i
        · rfl
        · rw [List.take_succ_cons, List.flatten_cons] at hlead
          exact absurd ((List.prefix_append _ _).trans hlead) hwhole
      rcases feed_text htext.read (showsEnd_of_isObject htext.object) htext.numbers with
        ⟨-, c, hfeed, hrests⟩ | ⟨-, hfeed⟩
      · exact ⟨0, c, _, hfeed, hrests, Nat.zero_le _, fun i _ hi => (hnone i hi).le⟩
      · refine ⟨1, between, [], by simpa using hfeed, between_rests, by simp, fun i _ hi => ?_⟩
        rw [hnone i hi]
        exact Nat.zero_le _

end Cursor

end ClusterAgent.Json
