/-
  ClusterAgent/Proofs/Agent/Bridges.lean
  ======================================
  **What happens to the bridges of shell sessions.**

  A bridge is moved by its own task only.  Everything else that happens in the world
  leaves its identifier, its phase and what it has not read as they are, and wakes it
  if there is something for it to do (`Beside`).  The one exception is the remote side,
  which writes to a session while it has a stream.  So three things can happen to the
  bridges in a move, and `changes_step` says that nothing else can.
-/
import ClusterAgent.Proofs.Agent.World
import ClusterAgent.Proofs.Agent.Frame
import ClusterAgent.Proofs.Session.Shell

namespace ClusterAgent.Agent

open Handler (Program ShellNumber)

variable {σ : Type}

/-- What the remote side has written and the bridge has not read. -/
def Shell.unread (s : Shell) : List UInt8 :=
  s.terminal.output.pieces.flatten

def Shell.Rests (s : Shell) : Prop :=
  s.phase = .gone ∨
    s.phase.isLive = true ∧ Session.Shell.turn s.inbox s.terminal = .idle

/-- The bridge has nothing to do, or its task is ready. -/
def Attended (a : Agent σ) (n : Nat) (s : Shell) : Prop :=
  s.Rests ∨ Task.shell n ∈ a.ready

/-- The bridge `n` is `s` in `a` and `s'` in `b`, and its own task has not run in between. -/
structure Kept (a b : Agent σ) (n : Nat) (s s' : Shell) : Prop where
  id : s'.id = s.id
  phase : s'.phase = s.phase
  unread : s'.unread = s.unread
  attended : Attended a n s → Attended b n s'

/-- Between `a` and `b` no bridge was moved by its own task; new ones may have come. -/
structure Beside (a b : Agent σ) : Prop where
  table : b.shellTable = a.shellTable
  old : ∀ (n : Nat) s, a.shells[n]? = some s → ∃ s', b.shells[n]? = some s' ∧ Kept a b n s s'
  new : ∀ n : Nat, a.shells[n]? = none → ∀ s', b.shells[n]? = some s' →
    s'.phase = .starting ∧ s'.unread = [] ∧ Task.shell n ∈ b.ready

/-! ### Composing -/

theorem Beside.of_eq {a b : Agent σ} (htable : b.shellTable = a.shellTable)
    (hshells : b.shells = a.shells)
    (hready : ∀ n, Task.shell n ∈ a.ready → Task.shell n ∈ b.ready) : Beside a b where
  table := htable
  old n s hs := ⟨s, by rw [hshells, hs], rfl, rfl, rfl, fun h => h.imp_right (hready n)⟩
  new n hnone s' hs' := by
    rw [hshells, hnone] at hs'
    cases hs'

theorem Beside.refl (a : Agent σ) : Beside a a :=
  Beside.of_eq rfl rfl fun _ h => h

theorem Beside.trans {a b c : Agent σ} (hab : Beside a b) (hbc : Beside b c) : Beside a c where
  table := hbc.table.trans hab.table
  old n s hs := by
    obtain ⟨s', hs', h⟩ := hab.old n s hs
    obtain ⟨s'', hs'', h'⟩ := hbc.old n s' hs'
    exact ⟨s'', hs'', h'.id.trans h.id, h'.phase.trans h.phase, h'.unread.trans h.unread,
      fun hattended => h'.attended (h.attended hattended)⟩
  new n hnone s'' hs'' := by
    cases hb : b.shells[n]? with
    | none => exact hbc.new n hb s'' hs''
    | some s' =>
      obtain ⟨hphase, hunread, hready⟩ := hab.new n hnone s' hb
      obtain ⟨t, ht, h⟩ := hbc.old n s' hb
      cases hs''.symm.trans ht
      refine ⟨h.phase.trans hphase, h.unread.trans hunread, ?_⟩
      rcases h.attended (Or.inr hready) with hrests | hready'
      · -- A bridge that is only starting does not rest.
        unfold Shell.Rests at hrests
        rw [h.phase, hphase] at hrests
        rcases hrests with hover | hlive
        · cases hover
        · exact absurd hlive.1 (by decide)
      · exact hready'

/-! ### Small changes -/

theorem beside_wakeAll (a : Agent σ) (ts : List Task) : Beside a (a.wakeAll ts) :=
  Beside.of_eq rfl rfl fun n h => by simp [wakeAll, h]

theorem beside_wake (a : Agent σ) (t : Task) : Beside a (a.wake t) :=
  beside_wakeAll a [t]

theorem beside_setStage (a : Agent σ) (n : Nat) (stage : Stage) : Beside a (a.setStage n stage) :=
  Beside.of_eq rfl rfl fun _ h => h

theorem beside_modifyLog (a : Agent σ) (n : Nat) (f : Log → Log) : Beside a (a.modifyLog n f) :=
  Beside.of_eq rfl rfl fun _ h => h

/-- Changing what a bridge has to do is all right if it can rest on, or is woken. -/
theorem beside_modifyShell (a : Agent σ) (n : Nat) (f : Shell → Shell) (ts : List Task)
    (hid : ∀ s, (f s).id = s.id) (hphase : ∀ s, (f s).phase = s.phase)
    (hunread : ∀ s, (f s).unread = s.unread)
    (hrests : (∀ s, s.Rests → (f s).Rests) ∨ Task.shell n ∈ ts) :
    Beside a ((a.modifyShell n f).wakeAll ts) where
  table := rfl
  old m s hs := by
    by_cases hm : n = m
    · subst hm
      refine ⟨f s, by simp [wakeAll, modifyShell, hs], hid s, hphase s, hunread s, ?_⟩
      rintro (h | h)
      · rcases hrests with hrests | hts
        · exact Or.inl (hrests s h)
        · exact Or.inr (by simp [wakeAll, hts])
      · exact Or.inr (by simp [wakeAll, modifyShell, h])
    · refine ⟨s, by simp [wakeAll, modifyShell, hs, hm], rfl, rfl, rfl, ?_⟩
      exact fun h => h.imp_right fun h => by simp [wakeAll, modifyShell, h]
  new m hnone s' hs' := by
    simp only [wakeAll, modifyShell] at hs'
    rw [List.getElem?_modify, hnone] at hs'
    cases hs'

theorem beside_addShell (a : Agent σ) (id : String) (target : Cluster.Target)
    (command : List String) (size : Cluster.TerminalSize) :
    Beside a (a.addShell id target command size) where
  table := rfl
  old n s hs := by
    refine ⟨s, getElem?_append_left_of_some hs, rfl, rfl, rfl, ?_⟩
    exact fun h => h.imp_right fun h => by simp [addShell, wake, h]
  new n hnone s' hs' := by
    have hle : a.shells.length ≤ n := List.getElem?_eq_none_iff.mp hnone
    simp only [addShell, wake] at hs' ⊢
    rw [List.getElem?_append_right hle] at hs'
    obtain ⟨hlt, rfl⟩ := List.getElem?_eq_some_iff.mp hs'
    have hn : n = a.shells.length := by
      rw [List.length_singleton] at hlt
      omega
    subst hn
    simp [Shell.unread, Session.Terminal.fresh, Session.Source.fresh]

theorem beside_addLog (a : Agent σ) (id : String) (target : Cluster.Target) :
    Beside a (a.addLog id target) :=
  Beside.of_eq rfl rfl fun n h => by simp [addLog, wake, h]

/-! ### Steps of other tasks -/

theorem beside_continueWith {a b : Agent σ} (h : Beside a b) (n : Nat)
    (rest : Program Response) : Beside a (b.continueWith n rest).agent :=
  h.trans (beside_setStage b n _)

/-- A parcel that is put into an inbox wakes the bridge. -/
theorem beside_give (a : Agent σ) (n : Nat) (f : Shell → Shell)
    (hid : ∀ s, (f s).id = s.id) (hphase : ∀ s, (f s).phase = s.phase)
    (hunread : ∀ s, (f s).unread = s.unread) :
    Beside a ((a.modifyShell n f).wake (.shell n)) :=
  beside_modifyShell a n f [.shell n] hid hphase hunread (Or.inr List.mem_cons_self)

theorem beside_hand (a : Agent σ) (n : Nat) (shell : ShellNumber) (p : Parcel)
    (next : Bool → Program Response) : Beside a (a.hand n shell p next).agent := by
  unfold hand
  split
  · rename_i b hdeliver
    apply beside_continueWith
    unfold deliver at hdeliver
    split at hdeliver
    · cases hdeliver
    · split at hdeliver
      · cases hdeliver
      · split at hdeliver
        · cases hdeliver
          apply beside_give
          all_goals
            intro s
            cases p <;> rfl
        · cases hdeliver
  · exact beside_continueWith (Beside.refl a) n _
  · refine Beside.trans ?_ (beside_setStage _ n _)
    refine beside_modifyShell a shell _ [] (fun _ => rfl) (fun _ => rfl) (fun _ => rfl) ?_
    exact Or.inl fun _ h => h

theorem beside_ask (a : Agent σ) (n : Nat) (rest : Program Response) :
    Beside a (a.ask n rest).agent := by
  cases rest with
  | done r => exact (beside_setStage a n _).trans (beside_wake _ _)
  | fail p => exact (beside_setStage a n _).trans (beside_wake _ _)
  | ask act next =>
    cases act with
    | cluster call => exact Beside.of_eq rfl rfl fun _ h => h
    | pause ms => exact Beside.of_eq rfl rfl fun _ h => h
    | setGate isOpen => exact Beside.of_eq rfl rfl fun _ h => h
    | openShell id target command size => exact beside_continueWith (beside_addShell ..) n _
    | findShell id => exact beside_continueWith (Beside.refl a) n _
    | sendResize shell size => exact beside_hand ..
    | sendInput shell bytes => exact beside_hand ..
    | openLog id target => exact beside_continueWith (beside_addLog ..) n _
    | cancelLog id =>
      simp only [ask]
      split
      · exact beside_continueWith ((beside_modifyLog a _ _).trans (beside_wake _ _)) n _
      · exact beside_continueWith (Beside.refl a) n _

theorem beside_stepHandler (a : Agent σ) (n : Nat) : Beside a (a.stepHandler n).agent := by
  unfold stepHandler
  split
  · exact beside_ask a n _
  · rename_i shell parcel rest _
    split
    · exact beside_continueWith (Beside.refl a) n _
    · split
      · exact beside_continueWith (Beside.refl a) n _
      · split
        · exact Beside.refl a
        · apply beside_continueWith
          apply beside_give
          all_goals
            intro s
            cases parcel <;> rfl
  · exact Beside.refl a

theorem beside_stepRequest (a : Agent σ) (n : Nat) : Beside a (a.stepRequest n).agent := by
  unfold stepRequest
  split
  · split
    · exact Beside.of_eq rfl rfl fun _ h => h
    · exact (beside_setStage a n _).trans (beside_wake _ _)
  · exact Beside.of_eq rfl rfl fun _ h => h
  · exact Beside.refl a

theorem beside_stepLog (prefersStream : Bool) (a : Agent σ) (n : Nat) :
    Beside a (stepLog prefersStream a n).agent := by
  unfold stepLog claimLog openLog readLog releaseLog
  repeat' split
  all_goals exact Beside.of_eq rfl rfl fun _ h => h

theorem beside_after (p : Progress σ) (t : Task) : Beside p.agent (p.after t) := by
  unfold Progress.after
  split
  · exact Beside.of_eq rfl rfl fun _ h => List.mem_cons_of_mem _ h
  · exact Beside.of_eq rfl rfl fun _ h => h

/-- A step of a task that is no bridge. -/
theorem beside_runTask (a : Agent σ) {t : Task} (ht : ∀ n, t ≠ .shell n)
    (prefersStream : Bool) : Beside a ((a.stepOf prefersStream t).after t) := by
  have herase : Beside a { a with ready := a.ready.erase t } :=
    Beside.of_eq rfl rfl fun n h => (List.mem_erase_of_ne (ht n).symm).mpr h
  refine herase.trans (Beside.trans ?_ (beside_after _ t))
  cases t with
  | request n => exact beside_stepRequest _ n
  | handler n => exact beside_stepHandler _ n
  | shell n => exact absurd rfl (ht n)
  | log n => exact beside_stepLog prefersStream _ n

/-! ### The remote side -/

theorem beside_onTerminal (a : Agent σ) (stream : Nat) (f : Session.Terminal → Session.Terminal)
    (hf : ∀ t : Session.Terminal, (f t).output.pieces = t.output.pieces) :
    Beside a (a.onTerminal stream f) := by
  unfold onTerminal
  split
  · exact Beside.refl a
  · refine beside_give a _ _ (fun _ => rfl) (fun _ => rfl) ?_
    intro s
    unfold Shell.unread
    rw [hf]

theorem beside_onSource (a : Agent σ) (stream : Nat) (f : Session.Source → Session.Source) :
    Beside a (a.onSource stream f) := by
  unfold onSource
  split
  · exact Beside.refl a
  · exact (beside_modifyLog a _ _).trans (beside_wake _ _)

theorem beside_logWrite (a : Agent σ) (stream : Nat) (bytes : List UInt8) :
    Beside a (a.logWrite stream bytes).2 := by
  unfold logWrite
  repeat' split
  all_goals first
    | exact Beside.refl a
    | exact beside_onSource a stream (·.write bytes)

theorem beside_advance {a b : Agent σ} (h : a.advance? = some b) : Beside a b := by
  unfold advance? at h
  split at h
  · cases h
  · obtain rfl := Option.some.inj h
    exact Beside.of_eq rfl rfl fun n h => by simp [wakeAll, h]

/-- A bridge rests on when its remote side takes the input, unless it waited for that. -/
theorem rests_collect {s : Shell} (h : s.Rests) :
    s.collect.Rests ∨
      s.inbox.writing ≠ [] ∧ s.phase ≠ .gone ∧ s.terminal.input.waiting ≠ [] := by
  rcases h with hover | ⟨hlive, hidle⟩
  · exact Or.inl (Or.inl hover)
  · by_cases hwriting : s.inbox.writing = []
    · exact Or.inl (Or.inr ⟨hlive, Session.Shell.idle_of_output hidle hwriting rfl⟩)
    · refine Or.inr ⟨hwriting, ?_, Session.Shell.waiting_of_idle hidle hwriting⟩
      intro hover
      rw [hover] at hlive
      cases hlive

theorem beside_collectAll (a : Agent σ) : Beside a a.collectAll where
  table := rfl
  old n s hs := by
    refine ⟨s.collect, by simp [collectAll, wakeAll, hs], rfl, rfl, rfl, ?_⟩
    rintro (hrests | hready)
    · rcases rests_collect hrests with hrests' | hblocked
      · exact Or.inl hrests'
      · apply Or.inr
        have hlt := (List.getElem?_eq_some_iff.mp hs).1
        simp only [collectAll, wakeAll, mem_foldl_enqueue]
        apply Or.inr
        simp only [blockedShells, List.mem_filterMap, List.mem_range]
        exact ⟨n, hlt, by simp [hs, hblocked]⟩
    · exact Or.inr (by simp [collectAll, wakeAll, hready])
  new n hnone s' hs' := by
    simp [collectAll, wakeAll, hnone] at hs'

end ClusterAgent.Agent
