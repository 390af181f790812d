/-
  ClusterAgent/Proofs/Watch/Cutting.lean
  ======================================
  **Where a stream is cut does not matter.**

  A stream of lists, objects and strings says by itself where each of its documents ends.
  So a decoder that is given the stream in pieces returns a document with the piece that
  brings its last byte, and keeps between two pieces the bytes of the document that has
  begun, whatever the cuts go through (`decoding_ignores_cuts`).  The proof follows the
  reader of the whole stream (`feed_written`); a decoder between two pieces stands for that
  reader, and each piece takes both to the next place.
-/
import ClusterAgent.Proofs.Watch.Forwarding

namespace ClusterAgent.Watch

open Json (Cursor Numeral Passage)
open Json.Reading (isSpace)

/-! ### Documents in a stream -/

/-- A passage of a stream whose document shows its own end.  No number in it has more digits than a
    reader that stops within it can take. -/
structure Written extends Passage where
  shown : document.showsEnd
  numbers : Json.Reading.start.numbersWithin Numeral.digitLimit 0 text

namespace Written

/-- The documents one after the other, and whitespace after the last. -/
def stream (documents : List Written) (gap : List UInt8) : List UInt8 :=
  (documents.map (·.bytes)).flatten ++ gap

/-- The documents, each with the number of bytes up to its last one. -/
def ends (before : Nat) : List Written → List (Nat × Json)
  | [] => []
  | w :: rest => (before + w.bytes.length, w.document) :: ends (before + w.bytes.length) rest

/-- The bytes of the document that has begun within the first `n` and goes on after them. -/
def unfinished : List Written → (n : Nat) → List UInt8
  | [], _ => []
  | w :: rest, n =>
    if w.bytes.length ≤ n then unfinished rest (n - w.bytes.length)
    else w.text.take (n - w.gap.length)

end Written

open Written (stream ends unfinished)

/-- The documents whose last bytes come after the first `a` bytes and among the first `b`. -/
def endingWithin (a b : Nat) (documents : List (Nat × Json)) : List Json :=
  (documents.filter fun e => a < e.1 ∧ e.1 ≤ b).map (·.2)

/-- For each piece that follows the first bytes, the documents whose last bytes it brings. -/
def supplied (documents : List (Nat × Json)) (before : Nat) : List (List UInt8) → List (List Json)
  | [] => []
  | piece :: rest =>
    endingWithin before (before + piece.length) documents ::
      supplied documents (before + piece.length) rest

/-! ### Where documents end -/

theorem Written.length_pos (w : Written) : 0 < w.bytes.length := by
  obtain ⟨b, hhead, -⟩ := w.tight.1
  have htext : 0 < w.text.length := List.length_pos_of_mem (List.mem_of_mem_head? hhead)
  rw [Passage.bytes, List.length_append]
  omega

theorem lt_of_mem_ends {documents : List Written} {before : Nat} {e : Nat × Json}
    (he : e ∈ ends before documents) : before < e.1 := by
  induction documents generalizing before with
  | nil => simp [ends] at he
  | cons w rest ih =>
    have hpos := w.length_pos
    rcases List.mem_cons.mp he with rfl | he
    · dsimp only
      omega
    · have hlater := ih he
      omega

theorem endingWithin_eq_nil {documents : List (Nat × Json)} {a b : Nat}
    (h : ∀ e ∈ documents, a < e.1 → b < e.1) : endingWithin a b documents = [] := by
  unfold endingWithin
  rw [List.map_eq_nil_iff, List.filter_eq_nil_iff]
  intro e he hwithin
  simp only [decide_eq_true_eq] at hwithin
  exact absurd (h e he hwithin.1) (by omega)

theorem endingWithin_cons {e : Nat × Json} {a b : Nat} (hlate : a < e.1) (hearly : e.1 ≤ b)
    (documents : List (Nat × Json)) :
    endingWithin a b (e :: documents) = e.2 :: endingWithin a b documents := by
  simp [endingWithin, hlate, hearly]

theorem pairwise_ends (documents : List Written) (before : Nat) :
    (ends before documents).Pairwise fun e e' => e.1 < e'.1 := by
  induction documents generalizing before with
  | nil => exact .nil
  | cons w rest ih => exact .cons (fun e he => lt_of_mem_ends he) (ih _)

/-- Bytes and further bytes complete what they complete together. -/
theorem endingWithin_append {documents : List (Nat × Json)}
    (hsorted : documents.Pairwise fun e e' => e.1 < e'.1) {a b c : Nat} (hab : a ≤ b)
    (hbc : b ≤ c) :
    endingWithin a b documents ++ endingWithin b c documents = endingWithin a c documents := by
  induction documents with
  | nil => rfl
  | cons e rest ih =>
    obtain ⟨hlater, hrest⟩ := List.pairwise_cons.mp hsorted
    by_cases hearly : e.1 ≤ b
    · have hwhole : e.1 ≤ c := by omega
      have hnext : ¬ b < e.1 := by omega
      by_cases hfirst : a < e.1
      · simpa [endingWithin, hearly, hwhole, hnext, hfirst] using ih hrest
      · simpa [endingWithin, hnext, hfirst] using ih hrest
    · -- All of these end after the first bytes, so the further ones complete them.
      have hall : ∀ e' ∈ e :: rest, b < e'.1 := by
        intro e' he'
        rcases List.mem_cons.mp he' with rfl | he'
        · omega
        · have hlate := hlater e' he'
          omega
      rw [endingWithin_eq_nil fun e' he' _ => hall e' he', List.nil_append]
      unfold endingWithin
      congr 1
      apply List.filter_congr
      intro e' he'
      have hlate := hall e' he'
      simp only [decide_eq_decide]
      omega

/-- Over the pieces of a stretch the documents are those that end within it. -/
theorem flatten_supplied {documents : List (Nat × Json)}
    (hsorted : documents.Pairwise fun e e' => e.1 < e'.1) (pieces : List (List UInt8))
    (before : Nat) :
    (supplied documents before pieces).flatten =
      endingWithin before (before + pieces.flatten.length) documents := by
  induction pieces generalizing before with
  | nil => exact (endingWithin_eq_nil fun e _ hlate => hlate).symm
  | cons piece rest ih =>
    rw [supplied, List.flatten_cons, ih, List.flatten_cons, List.length_append, ← Nat.add_assoc]
    exact endingWithin_append hsorted (Nat.le_add_right _ _) (Nat.le_add_right _ _)

theorem endingWithin_all (documents : List Written) {before n : Nat}
    (h : before + (documents.map (·.bytes)).flatten.length ≤ n) :
    endingWithin 0 n (ends before documents) = documents.map (·.document) := by
  induction documents generalizing before with
  | nil => rfl
  | cons w rest ih =>
    rw [List.map_cons, List.flatten_cons, List.length_append, ← Nat.add_assoc] at h
    have hpos := w.length_pos
    rw [ends, endingWithin_cons (by dsimp only; omega) (by dsimp only; omega), ih h, List.map_cons]

theorem unfinished_zero (documents : List Written) : unfinished documents 0 = [] := by
  cases documents with
  | nil => rfl
  | cons w rest =>
    have hpos := w.length_pos
    rw [unfinished, if_neg (by omega), Nat.zero_sub, List.take_zero]

theorem unfinished_all {documents : List Written} {n : Nat}
    (h : (documents.map (·.bytes)).flatten.length ≤ n) : unfinished documents n = [] := by
  induction documents generalizing n with
  | nil => rfl
  | cons w rest ih =>
    rw [List.map_cons, List.flatten_cons, List.length_append] at h
    rw [unfinished, if_pos (by omega)]
    exact ih (by omega)

/-! ### The reader of a stream -/

theorem feed_whole (w : Written) :
    Cursor.between.feed w.bytes = some ([w.document], .between) := by
  have hread := w.read
  have hnumbers := w.numbers
  rw [← List.append_nil w.text] at hread hnumbers
  rcases Cursor.feed_text hread w.shown hnumbers with ⟨hne, -⟩ | ⟨-, hfeed⟩
  · exact absurd rfl hne
  · rw [Passage.bytes, Cursor.feed_append, Cursor.feed_spaces w.gap_space]
    simp [hfeed]

/-- The reader of a part of a text has it all to read again. -/
theorem feed_part {w : Written} {first rest : List UInt8} (htext : first ++ rest = w.text)
    (hrest : rest ≠ []) :
    ∃ c, Cursor.between.feed first = some ([], c) ∧ c.Rests first := by
  have hread := w.read
  have hnumbers := w.numbers
  rw [← htext] at hread hnumbers
  rcases Cursor.feed_text hread w.shown hnumbers with ⟨-, c, hfeed, hrests⟩ | ⟨hspaces, -⟩
  · have hkept : first.dropWhile isSpace = first := by
      cases first with
      | nil => rfl
      | cons b first =>
        obtain ⟨c, hhead, hc⟩ := w.tight.1
        obtain rfl : b = c := by simpa [← htext] using hhead
        exact List.dropWhile_cons_of_neg (by simp [hc])
    exact ⟨c, hfeed, hkept ▸ hrests⟩
  · -- The last byte of the text belongs to the document.
    have hlast := w.tight.2 (rest.getLast hrest) (by
      simp [← htext, List.getLast?_eq_some_getLast hrest])
    exact absurd (hspaces _ (List.getLast_mem hrest)) (by simp [hlast])

/-- The reader of some bytes of a document and the whitespace before it has found nothing. -/
theorem feed_begun {w : Written} {bytes : List UInt8} (hpart : bytes <+: w.bytes)
    (hshort : bytes.length < w.bytes.length) :
    ∃ c, Cursor.between.feed bytes = some ([], c) ∧
      c.Rests (w.text.take (bytes.length - w.gap.length)) := by
  by_cases hbegun : bytes.length ≤ w.gap.length
  · have hspaces : bytes <+: w.gap :=
      List.prefix_of_prefix_length_le hpart (List.prefix_append _ _) hbegun
    rw [Nat.sub_eq_zero_of_le hbegun, List.take_zero]
    exact ⟨.between, Cursor.feed_spaces fun b hb => w.gap_space b (hspaces.subset hb),
      Cursor.between_rests⟩
  · obtain ⟨first, rfl⟩ : w.gap <+: bytes :=
      List.prefix_of_prefix_length_le (List.prefix_append _ _) hpart (by omega)
    obtain ⟨rest, htext⟩ : first <+: w.text := (List.prefix_append_right_inj w.gap).mp hpart
    have hrest : rest ≠ [] := by
      rintro rfl
      rw [List.append_nil] at htext
      rw [Passage.bytes, htext] at hshort
      exact absurd hshort (lt_irrefl _)
    obtain ⟨c, hfeed, hrests⟩ := feed_part htext hrest
    refine ⟨c, ?_, ?_⟩
    · rw [Cursor.feed_append, Cursor.feed_spaces w.gap_space, Option.bind_some, hfeed]
      rfl
    · simpa [← htext] using hrests

/-- The reader of the first bytes of a stream has found the documents that end there, and the rest
    of the bytes is the document that has begun. -/
theorem feed_written {documents : List Written} {gap bytes : List UInt8}
    (hgap : ∀ b ∈ gap, isSpace b) (hbytes : bytes <+: stream documents gap) (before : Nat) :
    ∃ c, Cursor.between.feed bytes =
        some (endingWithin 0 (before + bytes.length) (ends before documents), c) ∧
      c.Rests (unfinished documents bytes.length) := by
  induction documents generalizing bytes before with
  | nil =>
    have hspaces : ∀ b ∈ bytes, isSpace b := fun b hb => hgap b (hbytes.subset hb)
    exact ⟨.between, Cursor.feed_spaces hspaces, Cursor.between_rests⟩
  | cons w rest ih =>
    rw [stream, List.map_cons, List.flatten_cons, List.append_assoc] at hbytes
    by_cases hwhole : w.bytes <+: bytes
    · obtain ⟨later, rfl⟩ := hwhole
      have hlater : later <+: stream rest gap := (List.prefix_append_right_inj w.bytes).mp hbytes
      obtain ⟨c, hfeed, hrests⟩ := ih hlater (before + w.bytes.length)
      refine ⟨c, ?_, ?_⟩
      · have hpos := w.length_pos
        rw [Cursor.feed_append, feed_whole, Option.bind_some, hfeed, List.length_append,
          ← Nat.add_assoc, ends, endingWithin_cons (by dsimp only; omega) (by dsimp only; omega)]
        rfl
      · simpa [unfinished] using hrests
    · have hpart : bytes <+: w.bytes :=
        (List.prefix_or_prefix_of_prefix hbytes (List.prefix_append _ _)).resolve_right hwhole
      have hshort : bytes.length < w.bytes.length := by
        refine lt_of_le_of_ne hpart.length_le fun heq => hwhole ?_
        rw [hpart.eq_of_length heq]
      have hnone : endingWithin 0 (before + bytes.length) (ends before (w :: rest)) = [] := by
        apply endingWithin_eq_nil
        intro e he _
        rcases List.mem_cons.mp he with rfl | he
        · dsimp only
          omega
        · have hlate := lt_of_mem_ends he
          omega
      rw [hnone, unfinished, if_neg (by omega)]
      exact feed_begun hpart hshort

/-! ### The decoder -/

/-- A decoder between two pieces of a stream, given the next ones. -/
theorem pushAll_written {documents : List Written} {gap : List UInt8}
    (hgap : ∀ b ∈ gap, isSpace b) {before : List UInt8} {pieces : List (List UInt8)}
    (hpieces : before ++ pieces.flatten <+: stream documents gap) :
    Decoder.pushAll ⟨unfinished documents before.length⟩ pieces =
      (supplied (ends 0 documents) before.length pieces,
        ⟨unfinished documents (before ++ pieces.flatten).length⟩) := by
  induction pieces generalizing before with
  | nil => simp [Decoder.pushAll, supplied]
  | cons piece rest ih =>
    rw [List.flatten_cons, ← List.append_assoc] at hpieces
    have hnext : before ++ piece <+: stream documents gap := (List.prefix_append _ _).trans hpieces
    obtain ⟨c, hfeed, hrests⟩ := feed_written hgap ((List.prefix_append _ _).trans hnext) 0
    obtain ⟨c', hfeed', hrests'⟩ := feed_written hgap hnext 0
    obtain ⟨returned, hreturned, hall⟩ := Cursor.feed_further hfeed' hfeed
    obtain rfl : returned =
        endingWithin before.length (before.length + piece.length) (ends 0 documents) := by
      have hboth := endingWithin_append (pairwise_ends documents 0) (Nat.zero_le before.length)
        (Nat.le_add_right _ piece.length)
      rw [Nat.zero_add, Nat.zero_add, List.length_append, ← hboth] at hall
      exact List.append_cancel_left hall
    have hpush : Decoder.push ⟨unfinished documents before.length⟩ piece = (_, ⟨_⟩) :=
      Decoder.push_of_feed hrests hreturned hrests'
    rw [Decoder.pushAll, hpush]
    have hlater := ih hpieces
    rw [List.length_append] at hlater
    simp only [List.length_append, supplied, List.flatten_cons, hlater, List.append_assoc]

/-- **A stream is decoded wherever it is cut.**  Lists, objects and strings are written one after the
    other with any whitespace around them, and the stream is read in any pieces.  Each document is
    returned with the piece that brings its last byte, and what is kept are the bytes of the document
    that has begun.  So all pieces of a stream together give its documents in order, and nothing is
    kept in the end. -/
theorem decoding_ignores_cuts (documents : List Written) {gap : List UInt8}
    (hgap : ∀ b ∈ gap, isSpace b) {pieces : List (List UInt8)}
    (hpieces : pieces.flatten <+: stream documents gap) :
    let result := Decoder.fresh.pushAll pieces
    result.1 = supplied (ends 0 documents) 0 pieces ∧
      result.1.flatten = endingWithin 0 pieces.flatten.length (ends 0 documents) ∧
      result.2.pending = unfinished documents pieces.flatten.length ∧
      (pieces.flatten = stream documents gap →
        result.1.flatten = documents.map (·.document) ∧ result.2.pending = []) := by
  intro result
  have hresult : result = (supplied (ends 0 documents) 0 pieces,
      ⟨unfinished documents pieces.flatten.length⟩) := by
    have hall : Decoder.pushAll ⟨unfinished documents ([] : List UInt8).length⟩ pieces = _ :=
      pushAll_written hgap hpieces
    rwa [List.length_nil, unfinished_zero] at hall
  have hflatten := flatten_supplied (pairwise_ends documents 0) pieces 0
  rw [Nat.zero_add] at hflatten
  rw [hresult]
  refine ⟨rfl, hflatten, rfl, ?_⟩
  intro hwhole
  have hlength : (documents.map (·.bytes)).flatten.length ≤ pieces.flatten.length := by
    rw [hwhole, stream, List.length_append]
    exact Nat.le_add_right _ _
  refine ⟨?_, unfinished_all hlength⟩
  rw [hflatten, endingWithin_all documents (by omega)]

/-- A string with a pair of surrogate escapes, right after it a list, and then an object. -/
def threeWritten : List Written :=
  [{  gap := " \n".toUTF8.toList
      text := "\"\\ud83d\\ude00\"".toUTF8.toList
      document := .string "😀"
      gap_space := by decide +kernel
      tight := by decide +kernel
      read := by decide +kernel
      shown := rfl
      numbers := by decide +kernel },
    { gap := []
      text := "[\"é\", 1234]".toUTF8.toList
      document := .array [.string "é", .nat 1234]
      gap_space := by decide +kernel
      tight := by decide +kernel
      read := by decide +kernel
      shown := rfl
      numbers := by decide +kernel },
    { gap := "\t".toUTF8.toList
      text := "\x7b\"k\": null\x7d".toUTF8.toList
      document := .object [("k", .null)]
      gap_space := by decide +kernel
      tight := by decide +kernel
      read := by decide +kernel
      shown := rfl
      numbers := by decide +kernel }]

def threeStream : List UInt8 :=
  stream threeWritten "\r\n".toUTF8.toList

/-- An empty piece and then every byte on its own: the cuts go through the escapes, the character
    and the number. -/
def byteByByte : List (List UInt8) :=
  [] :: threeStream.map ([·])

theorem decoding_ignores_cuts_of_bytes :
    let whole := Decoder.fresh.pushAll byteByByte
    let part := Decoder.fresh.pushAll (byteByByte.take 26)
    byteByByte.flatten = threeStream ∧
      whole.1.flatten = [.string "😀", .array [.string "é", .nat 1234], .object [("k", .null)]] ∧
      whole.2.pending = [] ∧
      part.1.flatten = [.string "😀"] ∧ part.2.pending = "[\"é\", 12".toUTF8.toList := by
  intro whole part
  have hgap : ∀ b ∈ "\r\n".toUTF8.toList, isSpace b := by decide +kernel
  have hall : byteByByte.flatten = threeStream := by decide +kernel
  have hpart : (byteByByte.take 26).flatten = threeStream.take 25 := by decide +kernel
  have hfull : byteByByte.flatten <+: threeStream := hall ▸ List.prefix_refl byteByByte.flatten
  have hprefix : (byteByByte.take 26).flatten <+: threeStream := hpart ▸ List.take_prefix 25 _
  obtain ⟨-, -, -, hwhole⟩ := decoding_ignores_cuts threeWritten hgap hfull
  obtain ⟨-, hreturned, hpending, -⟩ := decoding_ignores_cuts threeWritten hgap hprefix
  refine ⟨hall, (hwhole hall).1, (hwhole hall).2, hreturned.trans ?_, hpending.trans ?_⟩
  · rw [hpart]
    decide +kernel
  · rw [hpart]
    decide +kernel

end ClusterAgent.Watch
