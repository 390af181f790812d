/-
  ClusterAgent/Proofs/Agent/Lifecycle.lean
  ========================================
  **The life of a shell session, from its open to its end.**

  What is known of a session (`Known`) is kept by the steps of its own bridge, and it
  is no concern of anybody else; so it holds of every session in every world, and with
  it that the table lists the sessions that hold their identifier (`Orderly`).
  `exec_lifecycle` reads this off: what a session queues and in which order, who holds
  which identifier, and what ends a session and what does not.
-/
import ClusterAgent.Handler.Sessions
import ClusterAgent.Proofs.Agent.Seats
import ClusterAgent.Proofs.Text.Base64

namespace ClusterAgent.Agent

open Handler (ShellNumber)

variable {σ : Type}

/-! ### What is known of a session -/

/-- What is known of the session `n`, when it is `s`. -/
structure Known (w : World σ) (n : Nat) (s : Shell) : Prop where
  story : Story s.id s.phase (w.deedsOf (.shell n))
  bytes : (reads (w.deedsOf (.shell n))).flatten ++ s.unread = w.writtenTo (.shell n)
  drained : .finish .finished ∈ w.deedsOf (.shell n) → s.unread = []
  attended : w.agent.Attended n s

/-- What is known of all sessions, and that nothing is told of those that there are not. -/
structure Orderly (w : World σ) : Prop where
  known : ∀ (n : Nat) (s : Shell), w.agent.shells[n]? = some s → Known w n s
  unborn : ∀ n : Nat, w.agent.shells[n]? = none →
    w.deedsOf (.shell n) = [] ∧ w.writtenTo (.shell n) = []
  seats : Seats w.agent.shellTable w.agent.holder?

theorem known_of_kept {w w' : World σ} {n : Nat} {s s' : Shell} (h : Known w n s)
    (hkept : Kept w.agent w'.agent n s s')
    (hdeeds : w'.deedsOf (.shell n) = w.deedsOf (.shell n))
    (hwritten : w'.writtenTo (.shell n) = w.writtenTo (.shell n)) : Known w' n s' where
  story := by
    rw [hkept.id, hkept.phase, hdeeds]
    exact h.story
  bytes := by
    rw [hkept.unread, hdeeds, hwritten]
    exact h.bytes
  drained := by
    rw [hkept.unread, hdeeds]
    exact h.drained
  attended := hkept.attended h.attended

theorem known_of_new {w : World σ} {n : Nat} {s : Shell} (hphase : s.phase = .starting)
    (hunread : s.unread = []) (hready : Task.shell n ∈ w.agent.ready)
    (hdeeds : w.deedsOf (.shell n) = []) (hwritten : w.writtenTo (.shell n) = []) :
    Known w n s where
  story := by
    rw [hphase]
    exact hdeeds
  bytes := by
    rw [hdeeds, hunread, hwritten]
    rfl
  drained _ := hunread
  attended := Or.inr hready

theorem orderly_beside {w w' : World σ} (h : Orderly w) (hagent : Beside w.agent w'.agent)
    (hdeeds : ∀ n, w'.deedsOf (.shell n) = w.deedsOf (.shell n))
    (hwritten : ∀ n, w'.writtenTo (.shell n) = w.writtenTo (.shell n)) : Orderly w' where
  known n s' hs' := by
    cases hs : w.agent.shells[n]? with
    | some s =>
      obtain ⟨t, ht, hkept⟩ := hagent.old n s hs
      cases hs'.symm.trans ht
      exact known_of_kept (h.known n s hs) hkept (hdeeds n) (hwritten n)
    | none =>
      obtain ⟨hphase, hunread, hready⟩ := hagent.new n hs s' hs'
      obtain ⟨hnothing, hnobody⟩ := h.unborn n hs
      exact known_of_new hphase hunread hready ((hdeeds n).trans hnothing)
        ((hwritten n).trans hnobody)
  unborn n hnone := by
    rw [hdeeds, hwritten]
    cases hs : w.agent.shells[n]? with
    | none => exact h.unborn n hs
    | some s =>
      obtain ⟨s', hs', -⟩ := hagent.old n s hs
      cases hnone.symm.trans hs'
  seats := by
    rw [hagent.table, holder?_beside hagent]
    exact h.seats

/-- Something happens to one session, and what is known of it is kept. -/
theorem orderly_at {w w' : World σ} (h : Orderly w) {n : Nat} {s' : Shell}
    (hshells : ∀ m : Nat, w'.agent.shells[m]? =
      if n = m then some s' else w.agent.shells[m]?)
    (hknown : Known w' n s')
    (hothers : ∀ m, m ≠ n → w'.deedsOf (.shell m) = w.deedsOf (.shell m) ∧
      w'.writtenTo (.shell m) = w.writtenTo (.shell m) ∧
      (Task.shell m ∈ w.agent.ready → Task.shell m ∈ w'.agent.ready))
    (hseats : Seats w'.agent.shellTable w'.agent.holder?) : Orderly w' where
  known m t ht := by
    rw [hshells] at ht
    split at ht
    · rename_i hm
      subst hm
      cases ht
      exact hknown
    · rename_i hm
      obtain ⟨hdeeds, hwritten, hready⟩ := hothers m (Ne.symm hm)
      refine known_of_kept (h.known m t ht) ?_ hdeeds hwritten
      exact ⟨rfl, rfl, rfl, fun hattended => hattended.imp_right hready⟩
  unborn m hnone := by
    rw [hshells] at hnone
    split at hnone
    · cases hnone
    · rename_i hm
      obtain ⟨hdeeds, hwritten, -⟩ := hothers m (Ne.symm hm)
      rw [hdeeds, hwritten]
      exact h.unborn m hnone
  seats := hseats

theorem unread_gets (bytes : List UInt8) (s : Shell) :
    (s.gets bytes).unread = s.unread ++ bytes := by
  simp [Shell.unread, Shell.gets, Session.Source.write]

theorem orderly_wrote {w w' : World σ} (h : Orderly w) {n : Nat} {s : Shell}
    {bytes : List UInt8} (hs : w.agent.shells[n]? = some s) (hlive : s.phase.isLive = true)
    (hagent : w'.agent = (w.agent.modifyShell n (Shell.gets bytes)).wake (.shell n))
    (hdeeds : ∀ m, w'.deedsOf (.shell m) = w.deedsOf (.shell m))
    (hwritten : ∀ m, w'.writtenTo (.shell m) =
      w.writtenTo (.shell m) ++ if n = m then bytes else []) : Orderly w' := by
  have hshells : ∀ m : Nat, w'.agent.shells[m]? =
      if n = m then some (s.gets bytes) else w.agent.shells[m]? := by
    intro m
    rw [hagent]
    simp only [wake, modifyShell]
    rw [List.getElem?_modify]
    by_cases hm : n = m
    · subst hm
      simp [hs]
    · simp [hm]
  have hready : ∀ t ∈ w.agent.ready, t ∈ w'.agent.ready := by
    intro t ht
    rw [hagent]
    simp [wake, modifyShell, ht]
  have hknown := h.known n s hs
  refine orderly_at h hshells ?_ ?_ ?_
  · constructor
    · rw [hdeeds]
      exact hknown.story
    · rw [hdeeds, hwritten, unread_gets, ← List.append_assoc, hknown.bytes, if_pos rfl]
    · intro hfinish
      rw [hdeeds] at hfinish
      exact absurd hfinish (finish_not_mem_of_live hknown.story hlive _)
    · apply Or.inr
      rw [hagent]
      simp [wake]
  · intro m hm
    refine ⟨hdeeds m, ?_, hready _⟩
    rw [hwritten, if_neg (Ne.symm hm), List.append_nil]
  · have hholder : w'.agent.holder? = w.agent.holder? := by
      funext m
      unfold holder?
      rw [hshells]
      by_cases hm : n = m
      · subst hm
        rw [if_pos rfl, hs]
        rfl
      · rw [if_neg hm]
    rw [hholder, hagent]
    exact h.seats

theorem orderly_own {w w' : World σ} (h : Orderly w) {n : Nat} {s : Shell} {p : Progress σ}
    (hs : w.agent.shells[n]? = some s)
    (hmoved : Moved (w.agent.withoutTask (.shell n)) n s p)
    (hagent : w'.agent = p.after (.shell n))
    (hdeeds : ∀ m, w'.deedsOf (.shell m) =
      w.deedsOf (.shell m) ++ if n = m then p.deeds else [])
    (hwritten : ∀ m, w'.writtenTo (.shell m) = w.writtenTo (.shell m)) : Orderly w' := by
  obtain ⟨s', hs', hid, hstep, hrests⟩ := hmoved.own
  have hshells : ∀ m : Nat, w'.agent.shells[m]? =
      if n = m then some s' else w.agent.shells[m]? := by
    intro m
    rw [hagent, shells_after]
    by_cases hm : n = m
    · subst hm
      rw [hs', if_pos rfl]
    · rw [if_neg hm]
      exact hmoved.others m (Ne.symm hm)
  have hknown := h.known n s hs
  have hown : w'.deedsOf (.shell n) = w.deedsOf (.shell n) ++ p.deeds := by
    rw [hdeeds, if_pos rfl]
  refine orderly_at h hshells ?_ ?_ ?_
  · constructor
    · rw [hown, hid]
      exact story_step hstep hknown.story
    · rw [hown, hwritten, reads_append, List.flatten_append, List.append_assoc,
        reads_step hstep]
      exact hknown.bytes
    · intro hfinish
      rw [hown] at hfinish
      exact drained_step hstep hknown.story hknown.drained hfinish
    · cases hgoes : p.goesOn with
      | false => exact Or.inl (hrests hgoes)
      | true =>
        apply Or.inr
        rw [hagent]
        simp [Progress.after, hgoes]
  · intro m hm
    refine ⟨?_, hwritten m, ?_⟩
    · rw [hdeeds, if_neg (Ne.symm hm), List.append_nil]
    · intro hready
      have hne : Task.shell m ≠ .shell n := by
        intro heq
        cases heq
        exact hm rfl
      have hkept := hmoved.ready _ ((List.mem_erase_of_ne hne).mpr hready)
      rw [hagent]
      exact (keeps_after p _).ready _ hkept
  · rw [hagent, shellTable_after]
    rw [← hagent]
    refine seats_step hstep h.seats ?_ ?_ ?_
    · simp [holder?, hs]
    · simp [holder?, hshells, hid]
    · intro m hm
      simp [holder?, hshells, Ne.symm hm]

theorem orderly_changes {w w' : World σ} (h : Orderly w) (hchanges : Changes w w') :
    Orderly w' := by
  cases hchanges with
  | beside agent deeds written => exact orderly_beside h agent deeds written
  | wrote n s bytes was live agent deeds written =>
    exact orderly_wrote h was live agent deeds written
  | own n s p was moved agent deeds written => exact orderly_own h was moved agent deeds written

theorem orderly_start (registry : Registry Handler) (client : Cluster.Client σ) (cluster : σ)
    (capacity tail : Nat) : Orderly (World.start registry client cluster capacity tail) where
  known n s hs := by cases hs
  unborn _ _ := ⟨rfl, rfl⟩
  seats := by
    constructor
    · intro n id guard hn
      cases hn
    · intro slot hslot
      cases hslot
    · exact List.nodup_nil

theorem orderly_run (registry : Registry Handler) (client : Cluster.Client σ) (cluster : σ)
    (capacity tail : Nat) (moves : List (Move σ)) :
    Orderly ((World.start registry client cluster capacity tail).run moves) :=
  World.run_induction (orderly_start registry client cluster capacity tail)
    (fun w m h => orderly_changes h (changes_step w m)) moves

/-! ### Identifiers -/

theorem ready_of_starting {w : World σ} (h : Orderly w) {n : Nat} {s : Shell}
    (hs : w.agent.shells[n]? = some s) (hphase : s.phase = .starting) :
    Task.shell n ∈ w.agent.ready := by
  rcases (h.known n s hs).attended with (hover | ⟨hlive, -⟩) | hready
  · rw [hphase] at hover
    cases hover
  · rw [hphase] at hlive
    cases hlive
  · exact hready

/-- One identifier is opened twice; the first session writes once and ends. -/
def openedTwice : World Cluster.Memory :=
  let registry := Registry.empty.register "pod" "exec" Handler.exec
  let frame := ("[\"pod\",\"exec\",\"7\"," ++
    "\x7b\"name\":\"web\",\"namespace\":\"prod\",\"session_id\":\"s\"\x7d]").toUTF8.toList
  (World.start registry Cluster.Memory.client Cluster.Memory.empty 9 0).run
    [.frame frame, .frame frame, .take, .take, .run (.request 0) false,
      .run (.handler 0) false, .run (.shell 0) false, .run (.shell 0) false,
      .run (.request 1) false, .run (.handler 1) false, .run (.shell 1) false,
      .shellWrite 0 [104, 105], .run (.shell 0) false, .shellCloseOutput 0,
      .run (.shell 0) false, .run (.shell 0) false, .run (.shell 0) false]

example : openedTwice.deedsOf (.shell 0) =
    [.claim ⟨"s", 1⟩, .dial none, .read [104, 105], .queue (Envelope.exec "s" [104, 105]),
      .finish .finished, .queue (Envelope.exec "s" Session.Shell.closeNotice),
      .release ⟨"s", 1⟩] ∧
    openedTwice.deedsOf (.shell 1) = [.queue (Envelope.exec "s" (refusal "s"))] ∧
    openedTwice.agent.isShellOpen "s" = false := by
  decide +kernel

end ClusterAgent.Agent
