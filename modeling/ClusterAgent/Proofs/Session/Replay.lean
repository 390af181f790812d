/-
  ClusterAgent/Proofs/Session/Replay.lean
  =======================================
  **Reading ahead changes nothing.**

  A stream that gives again what was read ahead gives the same bytes as the stream that
  was read, in the same order, however large the buffers are (`Replay.readAll_bytes`).
  With as many reads as there are bytes and one more it comes to its end
  (`Replay.readAll_ends`).  The bridge of a log reads every stream to its end as well
  (`Log.pump_all`).
-/
import ClusterAgent.Session.Log
import ClusterAgent.Session.Replay
import ClusterAgent.Proofs.Session.Turns

namespace ClusterAgent.Session

/-! ### Buffers of any size -/

namespace Source

variable {s rest : Source} {size : Nat} {bytes : List UInt8}

theorem nextInto?_eq_some {pieces left : List (List UInt8)} (hsize : 0 < size)
    (h : nextInto? size pieces = some (bytes, left)) :
    bytes ≠ [] ∧ bytes.length ≤ size ∧ bytes ++ left.flatten = pieces.flatten := by
  fun_induction nextInto? size pieces with
  | case1 => cases h
  | case2 more ih => exact ih h
  | case3 b bs more piece =>
    obtain ⟨rfl, rfl⟩ := Prod.mk.inj (Option.some.inj h)
    refine ⟨?_, List.length_take_le _ _, ?_⟩
    · simp only [piece, ne_eq, List.take_eq_nil_iff, reduceCtorEq, or_false]
      omega
    · show _ = piece ++ more.flatten
      split
      case isTrue hshort => rw [List.take_of_length_le hshort]
      case isFalse => rw [List.flatten_cons, ← List.append_assoc, List.take_append_drop]

theorem nextInto?_eq_none {pieces : List (List UInt8)} (h : nextInto? size pieces = none) :
    pieces.flatten = [] := by
  fun_induction nextInto? size pieces with
  | case1 => rfl
  | case2 more ih => exact ih h
  | case3 b bs more piece => cases h

/-- What a read says about the bytes that are left and the end of the stream. -/
inductive Gives (size : Nat) (s : Source) : Read → Prop where
  | bytes (bytes : List UInt8) (rest : Source) (full : bytes ≠ []) (short : bytes.length ≤ size)
      (order : bytes ++ rest.pieces.flatten = s.pieces.flatten) (same : rest.ending = s.ending) :
      Gives size s (.bytes bytes rest)
  | ended (e : Ending) (empty : s.pieces.flatten = []) (last : s.ending = some e) :
      Gives size s (.ended e)
  | nothing (empty : s.pieces.flatten = []) (going : s.ending = none) : Gives size s .nothing

theorem gives_readInto (hsize : 0 < size) (s : Source) : Gives size s (s.readInto size) := by
  unfold readInto
  split
  case h_1 bytes left hnext =>
    obtain ⟨hfull, hshort, horder⟩ := nextInto?_eq_some hsize hnext
    exact .bytes bytes _ hfull hshort horder rfl
  case h_2 hnext =>
    have hempty := nextInto?_eq_none hnext
    cases hending : s.ending with
    | some e => exact .ended e hempty hending
    | none => exact .nothing hempty hending

theorem nextInto?_readLimit (pieces : List (List UInt8)) :
    nextInto? readLimit pieces = next? pieces := by
  fun_induction next? pieces with
  | case1 => rfl
  | case2 more ih => exact ih
  | case3 => rfl

/-- A read is one into a buffer of the greatest size. -/
theorem readInto_readLimit (s : Source) : s.readInto readLimit = s.read := by
  unfold readInto
  rw [nextInto?_readLimit]
  rfl

theorem gives_read (s : Source) : Gives readLimit s s.read := by
  rw [← readInto_readLimit]
  exact gives_readInto (by decide) s

end Source

/-! ### What was read ahead -/

namespace Replay

/-- All that is still to be given. -/
def bytes (s : Replay) : List UInt8 :=
  s.ahead ++ s.rest.pieces.flatten

/-- What a read says about the bytes that are left and the end of the stream. -/
inductive Gives (size : Nat) (s : Replay) : Given → Prop where
  | bytes (bytes : List UInt8) (left : Replay) (full : bytes ≠ []) (short : bytes.length ≤ size)
      (order : bytes ++ left.bytes = s.bytes) (same : left.rest.ending = s.rest.ending) :
      Gives size s (.bytes bytes left)
  | ended (e : Ending) (empty : s.bytes = []) (last : s.rest.ending = some e) :
      Gives size s (.ended e)
  | nothing (empty : s.bytes = []) (going : s.rest.ending = none) : Gives size s .nothing

theorem gives_readInto {size : Nat} (hsize : 0 < size) (s : Replay) :
    Gives size s (s.readInto size) := by
  unfold readInto
  split
  case isTrue hnone =>
    have hbytes : s.bytes = s.rest.pieces.flatten := by rw [Replay.bytes, hnone, List.nil_append]
    have hgives := Source.gives_readInto hsize s.rest
    cases hread : s.rest.readInto size <;> rw [hread] at hgives <;> cases hgives
    case bytes bytes rest hfull hshort hsame horder =>
      exact .bytes bytes ⟨[], rest⟩ hfull hshort (by rw [hbytes, ← horder]; rfl) hsame
    case ended e hempty hover => exact .ended e (hbytes.trans hempty) hover
    case nothing hempty hgoing => exact .nothing (hbytes.trans hempty) hgoing
  case isFalse hsome =>
    refine .bytes _ _ ?_ (List.length_take_le _ _) ?_ rfl
    · rw [ne_eq, List.take_eq_nil_iff]
      rintro (hzero | hnil)
      · omega
      · exact hsome hnil
    · rw [Replay.bytes, Replay.bytes, ← List.append_assoc, List.take_append_drop]

variable {sizes : List Nat}

/-- Reads give the bytes of the stream in order, none of them empty. -/
theorem readAll_bytes (hsizes : ∀ size ∈ sizes, 0 < size) (s : Replay) :
    (s.readAll sizes).pieces.flatten ++ (s.readAll sizes).left.bytes = s.bytes ∧
      (∀ piece ∈ (s.readAll sizes).pieces, piece ≠ []) ∧
      ∀ e, (s.readAll sizes).ending = some e →
        (s.readAll sizes).left.bytes = [] ∧ s.rest.ending = some e := by
  induction sizes generalizing s with
  | nil => exact ⟨rfl, nofun, nofun⟩
  | cons size sizes ih =>
    obtain ⟨hsize, hsizes⟩ := List.forall_mem_cons.mp hsizes
    have hgives := gives_readInto hsize s
    unfold readAll
    cases hread : s.readInto size <;> rw [hread] at hgives <;> cases hgives
    case bytes bytes left hfull hshort hsame horder =>
      obtain ⟨hall, hpieces, hending⟩ := ih hsizes left
      refine ⟨?_, List.forall_mem_cons.mpr ⟨hfull, hpieces⟩, fun e he => ?_⟩
      · rw [List.flatten_cons, List.append_assoc, hall, horder]
      · obtain ⟨hempty, hover⟩ := hending e he
        exact ⟨hempty, hsame ▸ hover⟩
    case ended e hempty hover =>
      exact ⟨rfl, nofun, fun e' he => ⟨hempty, hover.trans he⟩⟩
    case nothing hempty hgoing => exact ⟨rfl, nofun, nofun⟩

/-- As many reads as there are bytes and one more come to the end of the stream. -/
theorem readAll_ends (hsizes : ∀ size ∈ sizes, 0 < size) (s : Replay)
    (henough : s.bytes.length < sizes.length) :
    (s.readAll sizes).pieces.flatten = s.bytes ∧ (s.readAll sizes).ending = s.rest.ending := by
  induction sizes generalizing s with
  | nil => cases henough
  | cons size sizes ih =>
    obtain ⟨hsize, hsizes⟩ := List.forall_mem_cons.mp hsizes
    have hgives := gives_readInto hsize s
    unfold readAll
    cases hread : s.readInto size <;> rw [hread] at hgives <;> cases hgives
    case bytes bytes left hfull hshort hsame horder =>
      have hpos := List.length_pos_iff.mpr hfull
      have hless : left.bytes.length < sizes.length := by
        rw [← horder, List.length_append, List.length_cons] at henough
        omega
      obtain ⟨hall, hending⟩ := ih hsizes left hless
      exact ⟨by rw [List.flatten_cons, hall, horder], hending.trans hsame⟩
    case ended e hempty hover => exact ⟨hempty.symm, hover.symm⟩
    case nothing hempty hgoing => exact ⟨hempty.symm, hgoing.symm⟩

/-- The stream as one that the bridge of a session reads. -/
def source (s : Replay) : Source :=
  if s.ahead = [] then s.rest else { s.rest with pieces := s.ahead :: s.rest.pieces }

@[simp] theorem source_ending (s : Replay) : s.source.ending = s.rest.ending := by
  unfold source
  split <;> rfl

theorem source_bytes (s : Replay) : s.source.pieces.flatten = s.bytes := by
  unfold source Replay.bytes
  split
  case isTrue hnone => rw [hnone, List.nil_append]
  case isFalse => rfl

def Given.read : Given → Read
  | .bytes piece left => .bytes piece left.source
  | .ended e => .ended e
  | .nothing => .nothing

/-- A bridge reads from it what anybody reads. -/
theorem read_source (s : Replay) (size : Nat) :
    s.source.readInto size = (s.readInto size).read := by
  unfold Replay.readInto
  cases hahead : s.ahead with
  | nil =>
    have hsource : s.source = s.rest := by simp [source, hahead]
    rw [hsource, if_pos rfl]
    cases s.rest.readInto size <;> rfl
  | cons b bs =>
    have hsource : s.source = { s.rest with pieces := (b :: bs) :: s.rest.pieces } := by
      simp [source, hahead]
    rw [hsource, if_neg (List.cons_ne_nil b bs)]
    simp only [Source.readInto, Source.nextInto?, Given.read, source, List.drop_eq_nil_iff]
    split <;> rfl

end Replay

/-! ### The bridge of a log -/

/-- A bound for the reads that a stream takes: each piece and each cut of one. -/
def Source.cuts (s : Source) : Nat :=
  s.pieces.length + s.pieces.flatten.length / readLimit

theorem Source.cuts_of_read {s rest : Source} {bytes : List UInt8}
    (h : s.read = .bytes bytes rest) : rest.cuts < s.cuts := by
  have hnext : ∀ {pieces left : List (List UInt8)} {bytes : List UInt8},
      next? pieces = some (bytes, left) →
        left.length + left.flatten.length / readLimit <
          pieces.length + pieces.flatten.length / readLimit := by
    intro pieces left bytes h
    fun_induction next? pieces with
    | case1 => cases h
    | case2 more ih =>
      have hless := ih h
      simp only [List.length_cons, List.flatten_cons, List.nil_append]
      omega
    | case3 b bs more piece =>
      obtain ⟨-, rfl⟩ := Prod.mk.inj (Option.some.inj h)
      show _ < (piece :: more).length + (piece :: more).flatten.length / readLimit
      split
      all_goals
        simp only [List.length_cons, List.flatten_cons, List.length_append, List.length_drop,
          readLimit] at *
        omega
  unfold read at h
  split at h
  case h_1 heq =>
    obtain ⟨rfl, rfl⟩ := Read.bytes.inj h
    exact hnext heq
  case h_2 => split at h <;> cases h

namespace Log

/-- A bridge sends what it reads, and it is over when the stream has ended. -/
theorem run_all {fuel : Nat} {s : Source} (hfine : ∀ text, s.ending ≠ some (.failed text))
    (henough : s.cuts < fuel) :
    (run fuel s).chunks.flatten = s.pieces.flatten ∧
      (∀ chunk ∈ (run fuel s).chunks, chunk ≠ []) ∧
      ((run fuel s).isOver = true ↔ s.ending = some .finished) := by
  induction fuel generalizing s with
  | zero => cases henough
  | succ fuel ih =>
    have hgives := s.gives_read
    unfold run
    cases hread : s.read <;> rw [hread] at hgives <;> cases hgives
    case bytes bytes rest hfull hshort hsame horder =>
      have hless := Source.cuts_of_read hread
      obtain ⟨hall, hchunks, hover⟩ := ih (hsame.symm ▸ hfine) (by omega)
      refine ⟨?_, List.forall_mem_cons.mpr ⟨hfull, hchunks⟩, hsame ▸ hover⟩
      rw [List.flatten_cons, hall, horder]
    case ended e hempty hending =>
      cases e with
      | finished => exact ⟨hempty.symm, nofun, by simp [hending]⟩
      | failed text => exact absurd hending (hfine text)
    case nothing hempty hgoing => exact ⟨hempty.symm, nofun, by simp [hgoing]⟩

/-- A bridge that is not stopped sends all that a stream gives. -/
theorem pump_all {s : Source} (hfine : ∀ text, s.ending ≠ some (.failed text)) :
    (pump false s).chunks.flatten = s.pieces.flatten ∧
      (∀ chunk ∈ (pump false s).chunks, chunk ≠ []) ∧
      ((pump false s).isOver = true ↔ s.ending = some .finished) :=
  run_all hfine (by unfold reads Source.cuts; omega)

end Log

end ClusterAgent.Session
