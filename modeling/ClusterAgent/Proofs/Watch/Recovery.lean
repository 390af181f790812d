/-
  ClusterAgent/Proofs/Watch/Recovery.lean
  =======================================
  **A decoder accounts for every byte.**

  Whatever pieces a decoder is given, the bytes since it last discarded anything are the
  documents that it returned for them, the whitespace around these, and what it keeps: no
  byte stands in two documents, and what is kept is the beginning of one document
  (`Accounts`).  One push continues the account (`Accounts.push`) or, where it meets a
  document that cannot be decoded, opens a new one with a decoder as it was at first.
-/
import ClusterAgent.Proofs.Json.Splitting
import ClusterAgent.Watch.Decoder

namespace ClusterAgent.Watch

open Json (Passage Splits Unfinished)
open Json.Reading (isSpace)

namespace Decoder

variable {d : Decoder} {piece : List UInt8} {found : List Passage}

/-! ### One push -/

/-- The push of a piece meets a document that cannot be decoded. -/
def Discards (d : Decoder) (piece : List UInt8) : Prop :=
  ∃ found, Splits (d.pending ++ piece) found .broken

theorem push_of_broken (h : Splits (d.pending ++ piece) found .broken) :
    d.push piece = (found.map Passage.document, fresh) := by
  rw [push, Json.documents_of_splits h]

theorem push_of_pending {left : List UInt8} (h : Splits (d.pending ++ piece) found (.pending left)) :
    d.push piece = (found.map Passage.document, ⟨left⟩) := by
  rw [push, Json.documents_of_splits h]

theorem discards_iff : d.Discards piece ↔ (Json.documents (d.pending ++ piece)).2 = .broken := by
  constructor
  · rintro ⟨found, hsplits⟩
    rw [Json.documents_of_splits hsplits]
  · intro hbroken
    obtain ⟨found, tail, hsplits⟩ := Json.exists_splits (d.pending ++ piece)
    rw [Json.documents_of_splits hsplits] at hbroken
    exact ⟨found, hbroken ▸ hsplits⟩

instance (d : Decoder) (piece : List UInt8) : Decidable (d.Discards piece) :=
  decidable_of_iff _ discards_iff.symm

theorem exists_pending_of_not_discards (h : ¬ d.Discards piece) :
    ∃ found left, Splits (d.pending ++ piece) found (.pending left) := by
  obtain ⟨found, tail, hsplits⟩ := Json.exists_splits (d.pending ++ piece)
  cases tail with
  | pending left => exact ⟨found, left, hsplits⟩
  | broken => exact absurd ⟨found, hsplits⟩ h

/-! ### Several pushes -/

theorem pushAll_append (d : Decoder) (first rest : List (List UInt8)) :
    d.pushAll (first ++ rest) =
      ((d.pushAll first).1 ++ ((d.pushAll first).2.pushAll rest).1,
        ((d.pushAll first).2.pushAll rest).2) := by
  induction first generalizing d with
  | nil => rfl
  | cons p first ih => simp only [List.cons_append, pushAll, ih]

/-- A decoder that has been given these pieces. -/
def after (pieces : List (List UInt8)) : Decoder :=
  (fresh.pushAll pieces).2

theorem pushAll_after (first rest : List (List UInt8)) :
    fresh.pushAll (first ++ rest) =
      ((fresh.pushAll first).1 ++ ((after first).pushAll rest).1,
        ((after first).pushAll rest).2) :=
  pushAll_append fresh first rest

theorem after_append (first rest : List (List UInt8)) :
    after (first ++ rest) = ((after first).pushAll rest).2 := by
  rw [after, pushAll_after]

theorem pushAll_concat (pieces : List (List UInt8)) (piece : List UInt8) :
    fresh.pushAll (pieces ++ [piece]) =
      ((fresh.pushAll pieces).1 ++ [((after pieces).push piece).1],
        ((after pieces).push piece).2) :=
  pushAll_after pieces [piece]

theorem after_concat (pieces : List (List UInt8)) (piece : List UInt8) :
    after (pieces ++ [piece]) = ((after pieces).push piece).2 :=
  after_append pieces [piece]

/-- No push of these pieces meets a document that cannot be decoded. -/
def Keeps (pieces : List (List UInt8)) : Prop :=
  ∀ before piece rest, before ++ piece :: rest = pieces → ¬ (after before).Discards piece

/-- The last push of these pieces meets a document that cannot be decoded, or there is none. -/
def EndsDiscarding (pieces : List (List UInt8)) : Prop :=
  ∀ before piece, before ++ [piece] = pieces → (after before).Discards piece

theorem keeps_nil : Keeps [] := by
  intro before piece rest hcut
  simp at hcut

theorem Keeps.concat {pieces : List (List UInt8)} (h : Keeps pieces)
    (hkeeps : ¬ (after pieces).Discards piece) : Keeps (pieces ++ [piece]) := by
  intro before p rest hcut
  cases List.eq_nil_or_concat rest with
  | inl hnil =>
    subst hnil
    obtain ⟨rfl, hp⟩ := List.append_inj' hcut rfl
    obtain rfl := (List.cons.inj hp).1
    exact hkeeps
  | inr hconcat =>
    obtain ⟨init, last, rfl⟩ := hconcat
    rw [List.concat_eq_append, ← List.cons_append, ← List.append_assoc] at hcut
    exact h before p init (List.append_inj' hcut rfl).1

/-! ### The account -/

/-- The pieces are the returned documents, the whitespace around these, and what the decoder
    keeps. -/
structure Accounts (pieces : List (List UInt8)) (returned : List Json) (d : Decoder) : Prop where
  cover : ∃ (found : List Passage) (gap : List UInt8), found.map Passage.document = returned ∧
    (∀ b ∈ gap, isSpace b) ∧
      pieces.flatten = (found.map Passage.bytes).flatten ++ gap ++ d.pending
  kept : d.pending = [] ∨ Unfinished d.pending

theorem accounts_fresh : Accounts [] [] fresh :=
  ⟨⟨[], [], rfl, nofun, rfl⟩, .inl rfl⟩

theorem Accounts.push {pieces : List (List UInt8)} {returned : List Json}
    (h : Accounts pieces returned d) (hkeeps : ¬ d.Discards piece) :
    Accounts (pieces ++ [piece]) (returned ++ (d.push piece).1) (d.push piece).2 := by
  obtain ⟨new, left, hsplits⟩ := exists_pending_of_not_discards hkeeps
  obtain ⟨hleft, last, hlast, hbytes⟩ := hsplits.accounts
  obtain ⟨found, gap, hreturned, hgap, hpieces⟩ := h.cover
  obtain ⟨padded, rest, hpadded, hrest, hcover⟩ := Json.exists_padded hgap new hlast
  rw [push_of_pending hsplits]
  refine ⟨⟨found ++ padded, rest, by rw [List.map_append, hreturned, hpadded], hrest, ?_⟩, hleft⟩
  calc (pieces ++ [piece]).flatten
      = (found.map Passage.bytes).flatten ++ gap ++ (d.pending ++ piece) := by simp [hpieces]
    _ = (found.map Passage.bytes).flatten ++
          (gap ++ ((new.map Passage.bytes).flatten ++ last)) ++ left := by simp [hbytes]
    _ = ((found ++ padded).map Passage.bytes).flatten ++ rest ++ left := by simp [hcover]

/-- What a decoder keeps does not begin with a document that shows its end. -/
theorem Accounts.hidden {pieces : List (List UInt8)} {returned : List Json}
    (h : Accounts pieces returned d) {first rest : List UInt8} {document : Json}
    (hcut : first ++ rest = d.pending) (hread : Json.read first = .ok document) :
    document.showsEnd = false := by
  rcases h.kept with hnil | hopen
  · rw [hnil] at hcut
    obtain ⟨rfl, -⟩ := List.append_eq_nil_iff.mp hcut
    cases hread
  · rw [Bool.eq_false_iff]
    exact fun hshown => hopen.none hcut hread (.inl hshown)

/-- The pieces since a decoder last discarded anything: they find it as it was at first. -/
theorem exists_account (pieces : List (List UInt8)) :
    ∃ earlier since, earlier ++ since = pieces ∧ EndsDiscarding earlier ∧ after earlier = fresh ∧
      Keeps since ∧ Accounts since (fresh.pushAll since).1.flatten (after since) := by
  induction pieces using List.reverseRecOn with
  | nil =>
    exact ⟨[], [], rfl, fun before piece hcut => by simp at hcut, rfl, keeps_nil, accounts_fresh⟩
  | append_singleton pieces piece ih =>
    obtain ⟨earlier, since, rfl, hends, hfresh, hkeeps, haccounts⟩ := ih
    have hsame : after (earlier ++ since) = after since := by
      rw [after_append, hfresh]
      rfl
    by_cases hdiscards : (after since).Discards piece
    · refine ⟨earlier ++ since ++ [piece], [], List.append_nil _, ?_, ?_, keeps_nil,
        accounts_fresh⟩
      · intro before last hcut
        obtain ⟨rfl, hlast⟩ := List.append_inj' hcut rfl
        obtain rfl := (List.cons.inj hlast).1
        rwa [hsame]
      · obtain ⟨found, hsplits⟩ := hdiscards
        rw [after_concat, hsame, push_of_broken hsplits]
    · refine ⟨earlier, since ++ [piece], (List.append_assoc _ _ _).symm, hends, hfresh,
        hkeeps.concat hdiscards, ?_⟩
      rw [after_concat, pushAll_concat, List.flatten_append, List.flatten_singleton]
      exact haccounts.push hdiscards

end Decoder

open Decoder (Accounts Discards EndsDiscarding Keeps after fresh)

/-- **A decoder accounts for every byte and recovers from what it cannot decode.**  It may have been
    given any pieces before the next one.

    Where that one meets a document that cannot be decoded, the documents before it are returned,
    the decoder is as it was at first, and all later pieces give what they give a fresh decoder.
    Where it does not, the documents of the bytes are returned and the rest is kept.  Then the pieces
    since the last time anything was discarded are the documents that were returned for them, the
    whitespace around these, and the bytes that are kept: none, or an unfinished document, which
    does not begin with a document that shows its own end. -/
theorem decoder_accounts_for_bytes (pieces : List (List UInt8)) (piece : List UInt8) :
    (∀ found, Splits ((after pieces).pending ++ piece) found .broken →
      (after pieces).push piece = (found.map Passage.document, fresh) ∧
        ∀ later, fresh.pushAll (pieces ++ piece :: later) =
          ((fresh.pushAll pieces).1 ++ found.map Passage.document :: (fresh.pushAll later).1,
            after later)) ∧
      (¬ (after pieces).Discards piece →
        (∃ found left, Splits ((after pieces).pending ++ piece) found (.pending left) ∧
          (after pieces).push piece = (found.map Passage.document, ⟨left⟩)) ∧
        (∃ earlier since, earlier ++ since = pieces ++ [piece] ∧
          EndsDiscarding earlier ∧ Keeps since ∧
          (fresh.pushAll (pieces ++ [piece])).1 =
            (fresh.pushAll earlier).1 ++ (fresh.pushAll since).1 ∧
          Accounts since (fresh.pushAll since).1.flatten (after (pieces ++ [piece]))) ∧
        ∀ first rest document, first ++ rest = (after (pieces ++ [piece])).pending →
          Json.read first = .ok document → document.showsEnd = false) := by
  constructor
  · intro found hsplits
    have hpush : (after pieces).push piece = (found.map Passage.document, fresh) :=
      Decoder.push_of_broken hsplits
    refine ⟨hpush, fun later => ?_⟩
    rw [Decoder.pushAll_after, Decoder.pushAll, hpush]
    rfl
  · intro hkeeps
    obtain ⟨earlier, since, hcut, hends, hfresh, hsince, haccounts⟩ :=
      Decoder.exists_account (pieces ++ [piece])
    have hall : fresh.pushAll (pieces ++ [piece]) =
        ((fresh.pushAll earlier).1 ++ (fresh.pushAll since).1, after since) := by
      rw [← hcut, Decoder.pushAll_after, hfresh]
      rfl
    have hnext : after since = after (pieces ++ [piece]) := (congrArg Prod.snd hall).symm
    rw [hnext] at haccounts
    refine ⟨?_, ⟨earlier, since, hcut, hends, hsince, congrArg Prod.fst hall, haccounts⟩,
      fun first rest document => haccounts.hidden⟩
    obtain ⟨found, left, hsplits⟩ := Decoder.exists_pending_of_not_discards hkeeps
    exact ⟨found, left, hsplits, Decoder.push_of_pending hsplits⟩

/-- A word that two pieces share, a list after it, and then a bracket that closes nothing: what comes
    before the bracket is returned.  The next piece stops within a character of a string, and only
    that is kept. -/
theorem decoder_accounts_for_bytes_around_bracket :
    let pieces := ["[1]\x7b\"a\"".toUTF8.toList, ": 2\x7d nu".toUTF8.toList]
    let bracket := "ll [3] ] [4]".toUTF8.toList
    let cut := "\"é".toUTF8.toList.take 2
    (after pieces).push bracket = ([.null, .array [.nat 3]], fresh) ∧
      fresh.pushAll (pieces ++ bracket :: [cut]) =
        ([[.array [.nat 1]], [.object [("a", .nat 2)]], [.null, .array [.nat 3]], []], ⟨cut⟩) ∧
      ∃ earlier since, earlier ++ since = pieces ++ [bracket] ++ [cut] ∧
        Accounts since (fresh.pushAll since).1.flatten ⟨cut⟩ := by
  intro pieces bracket cut
  have hdiscards : (after pieces).Discards bracket := by decide +kernel
  have hkeeps : ¬ (after (pieces ++ [bracket])).Discards cut := by decide +kernel
  obtain ⟨found, hsplits⟩ := hdiscards
  obtain ⟨hpush, hlater⟩ := (decoder_accounts_for_bytes pieces bracket).1 found hsplits
  obtain ⟨-, ⟨earlier, since, hcut, -, -, -, haccounts⟩, -⟩ :=
    (decoder_accounts_for_bytes (pieces ++ [bracket]) cut).2 hkeeps
  have hfound : found.map Passage.document = [.null, .array [.nat 3]] := by
    have hdocuments : Json.documents ((after pieces).pending ++ bracket) = (_, .broken) :=
      Json.documents_of_splits hsplits
    have hlisted : Json.documents ((after pieces).pending ++ bracket) =
        ([.null, .array [.nat 3]], .broken) := by
      decide +kernel
    exact (Prod.mk.inj (hdocuments.symm.trans hlisted)).1
  have hnext : after (pieces ++ [bracket] ++ [cut]) = ⟨cut⟩ := by decide +kernel
  refine ⟨by rw [hpush, hfound], ?_, earlier, since, hcut, hnext ▸ haccounts⟩
  rw [hlater, hfound]
  decide +kernel

end ClusterAgent.Watch
