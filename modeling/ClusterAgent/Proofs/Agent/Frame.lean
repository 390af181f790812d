/-
  ClusterAgent/Proofs/Agent/Frame.lean
  ====================================
  **What a step leaves alone.**

  Most of what a task does concerns its own session or its own request.  Two facts
  about everything else carry the theory of the agent:

    * nobody is forgotten (`Keeps`): a task that was ready or asleep will still run,
      and a request that waited for room in a shell session waits there still or has
      been woken;
    * sessions and what happens outside leave the requests and the registry as they
      are (`Undisturbed`).
-/
import ClusterAgent.Proofs.Agent.World

namespace ClusterAgent.Agent

open Handler (Program ShellNumber)

variable {σ : Type}

/-! ### The list of ready tasks -/

@[simp] theorem mem_enqueue (ready : List Task) (t u : Task) :
    u ∈ enqueue ready t ↔ u ∈ ready ∨ u = t := by
  unfold enqueue
  split
  · rename_i h
    constructor
    · exact Or.inl
    · rintro (hu | rfl)
      · exact hu
      · exact h
  · simp

@[simp] theorem mem_foldl_enqueue (ts ready : List Task) (u : Task) :
    u ∈ ts.foldl enqueue ready ↔ u ∈ ready ∨ u ∈ ts := by
  induction ts generalizing ready with
  | nil => simp
  | cons t ts ih => simp [ih, or_assoc]

theorem mem_insertTimer (deadline : Nat) (t : Task) (timers : List (Nat × Task))
    (x : Nat × Task) :
    x ∈ insertTimer deadline t timers ↔ x = (deadline, t) ∨ x ∈ timers := by
  induction timers with
  | nil => simp [insertTimer]
  | cons y rest ih =>
    obtain ⟨d, u⟩ := y
    unfold insertTimer
    split
    · simp
    · simp only [List.mem_cons, ih]
      exact or_left_comm

/-! ### Nobody is forgotten -/

/-- Whether the handler of a request waits for room in a shell session. -/
def WaitsAt (a : Agent σ) (n : Nat) (shell : ShellNumber) : Prop :=
  ∃ s, a.shells[shell]? = some s ∧ s.isListening = true ∧ n ∈ s.waiting.map Prod.fst

/-- Nobody for whom something was coming in `a` is forgotten in `b`. -/
structure Keeps (a b : Agent σ) : Prop where
  ready : ∀ t ∈ a.ready, t ∈ b.ready
  timers : ∀ x ∈ a.timers, x ∈ b.timers ∨ x.2 ∈ b.ready
  waiting : ∀ n shell, a.WaitsAt n shell → b.WaitsAt n shell ∨ Task.handler n ∈ b.ready

theorem Keeps.refl (a : Agent σ) : Keeps a a :=
  ⟨fun _ h => h, fun _ h => Or.inl h, fun _ _ h => Or.inl h⟩

theorem Keeps.trans {a b c : Agent σ} (hab : Keeps a b) (hbc : Keeps b c) : Keeps a c where
  ready t ht := hbc.ready t (hab.ready t ht)
  timers x hx := by
    rcases hab.timers x hx with h | h
    · exact hbc.timers x h
    · exact Or.inr (hbc.ready _ h)
  waiting n shell hn := by
    rcases hab.waiting n shell hn with h | h
    · exact hbc.waiting n shell h
    · exact Or.inr (hbc.ready _ h)

/-- A change that leaves shell sessions and sleeping tasks alone forgets nobody if it makes tasks
    ready at most. -/
theorem Keeps.of_eq {a b : Agent σ} (hready : ∀ t ∈ a.ready, t ∈ b.ready)
    (htimers : b.timers = a.timers) (hshells : b.shells = a.shells) : Keeps a b where
  ready := hready
  timers _ hx := Or.inl (by rw [htimers]; exact hx)
  waiting n shell hn := Or.inl (by unfold WaitsAt at hn ⊢; rw [hshells]; exact hn)

theorem keeps_wakeAll (a : Agent σ) (ts : List Task) : Keeps a (a.wakeAll ts) :=
  Keeps.of_eq (fun t ht => by simp [wakeAll, ht]) rfl rfl

theorem keeps_wake (a : Agent σ) (t : Task) : Keeps a (a.wake t) :=
  Keeps.of_eq (fun u hu => by simp [wake, hu]) rfl rfl

theorem keeps_setStage (a : Agent σ) (n : Nat) (stage : Stage) : Keeps a (a.setStage n stage) :=
  Keeps.of_eq (fun _ h => h) rfl rfl

theorem keeps_sleep (a : Agent σ) (t : Task) (ms : Nat) : Keeps a (a.sleep t ms) where
  ready _ h := h
  timers _ hx := Or.inl ((mem_insertTimer _ _ _ _).2 (Or.inr hx))
  waiting _ _ h := Or.inl h

theorem keeps_modifyLog (a : Agent σ) (n : Nat) (f : Log → Log) : Keeps a (a.modifyLog n f) :=
  Keeps.of_eq (fun _ h => h) rfl rfl

/-- Changing a shell session forgets nobody as long as everybody who waits there waits there still
    or is woken. -/
theorem keeps_modifyShell_wakeAll (a : Agent σ) (n : ShellNumber) (f : Shell → Shell)
    (ts : List Task)
    (h : ∀ s, a.shells[n]? = some s → s.isListening = true → ∀ m ∈ s.waiting.map Prod.fst,
      ((f s).isListening = true ∧ m ∈ (f s).waiting.map Prod.fst) ∨ Task.handler m ∈ ts) :
    Keeps a ((a.modifyShell n f).wakeAll ts) where
  ready t ht := by simp [wakeAll, modifyShell, ht]
  timers _ h := Or.inl h
  waiting m shell hm := by
    obtain ⟨s, hs, hl, hw⟩ := hm
    by_cases hn : n = shell
    · subst hn
      rcases h s hs hl m hw with ⟨hl', hw'⟩ | hts
      · exact Or.inl ⟨f s, by simp [wakeAll, modifyShell, hs], hl', hw'⟩
      · exact Or.inr (by simp [wakeAll, modifyShell, hts])
    · exact Or.inl ⟨s, by simp [wakeAll, modifyShell, hs, hn], hl, hw⟩

theorem keeps_modifyShell (a : Agent σ) (n : ShellNumber) (f : Shell → Shell)
    (hlistens : ∀ s : Shell, s.isListening = true → (f s).isListening = true)
    (hwaits : ∀ (s : Shell), ∀ m ∈ s.waiting.map Prod.fst, m ∈ (f s).waiting.map Prod.fst) :
    Keeps a (a.modifyShell n f) :=
  keeps_modifyShell_wakeAll a n f [] fun s _ hl m hm => Or.inl ⟨hlistens s hl, hwaits s m hm⟩

theorem keeps_setShellPhase (a : Agent σ) (n : ShellNumber) (phase : Phase) :
    Keeps a (a.setShellPhase n phase) :=
  keeps_modifyShell a n _ (fun _ h => h) (fun _ _ h => h)

/-- Closing an inbox wakes all who wait for room in it. -/
theorem keeps_closeInbox (a : Agent σ) {n : ShellNumber} {s : Shell} (hs : a.shells[n]? = some s) :
    Keeps a (a.closeInbox n s) := by
  apply keeps_modifyShell_wakeAll
  intro s' hs' _ m hm
  obtain rfl : s' = s := Option.some.inj (hs'.symm.trans hs)
  obtain ⟨x, hx, rfl⟩ := List.mem_map.mp hm
  exact Or.inr (List.mem_map.mpr ⟨x, hx, rfl⟩)

theorem getElem?_append_left_of_some {α : Type} {l l' : List α} {i : Nat} {x : α}
    (h : l[i]? = some x) : (l ++ l')[i]? = some x := by
  rw [List.getElem?_append_left (List.getElem?_eq_some_iff.mp h).1, h]

theorem keeps_addShell (a : Agent σ) (id : String) (target : Cluster.Target)
    (command : List String) (size : Cluster.TerminalSize) :
    Keeps a (a.addShell id target command size) where
  ready t ht := by simp [addShell, wake, ht]
  timers _ h := Or.inl h
  waiting m shell hm := by
    obtain ⟨s, hs, hl, hw⟩ := hm
    exact Or.inl ⟨s, getElem?_append_left_of_some hs, hl, hw⟩

theorem keeps_addLog (a : Agent σ) (id : String) (target : Cluster.Target) :
    Keeps a (a.addLog id target) :=
  Keeps.of_eq (fun t ht => by simp [addLog, wake, ht]) rfl rfl

/-! ### After a step -/

theorem keeps_after (p : Progress σ) (t : Task) : Keeps p.agent (p.after t) := by
  unfold Progress.after
  split
  · exact Keeps.of_eq (fun u hu => List.mem_cons_of_mem _ hu) rfl rfl
  · exact Keeps.of_eq (fun _ h => h) rfl rfl

theorem shells_after (p : Progress σ) (t : Task) : (p.after t).shells = p.agent.shells := by
  unfold Progress.after
  split <;> rfl

theorem shellTable_after (p : Progress σ) (t : Task) :
    (p.after t).shellTable = p.agent.shellTable := by
  unfold Progress.after
  split <;> rfl

/-- The agent from which a ready task takes its step. -/
abbrev withoutTask (a : Agent σ) (t : Task) : Agent σ :=
  { a with ready := a.ready.erase t }

/-! ### Steps of sessions -/

/-- Whoever waits for room is granted it or waits on. -/
theorem mem_grant (isKind : Parcel → Bool) (free : Nat) (waiting : List (Nat × Parcel)) :
    ∀ x ∈ waiting, x.1 ∈ (grant isKind free waiting).1 ∨ x ∈ (grant isKind free waiting).2 := by
  fun_induction grant isKind free waiting with
  | case1 => simp
  | case2 => simp
  | case3 free n p rest hp granted left hg ih =>
    intro x hx
    rw [hg] at ih
    rcases List.mem_cons.mp hx with rfl | hx
    · simp
    · rcases ih x hx with h | h
      · exact Or.inl (List.mem_cons_of_mem _ h)
      · exact Or.inr h
  | case4 free n p rest hp granted left hg ih =>
    intro x hx
    rw [hg] at ih
    rcases List.mem_cons.mp hx with rfl | hx
    · simp
    · rcases ih x hx with h | h
      · exact Or.inl h
      · exact Or.inr (List.mem_cons_of_mem _ h)

theorem keeps_claimShell (a : Agent σ) {n : ShellNumber} {s : Shell}
    (hs : a.shells[n]? = some s) : Keeps a (a.claimShell n s).agent := by
  unfold claimShell
  split
  · exact (keeps_closeInbox a hs).trans (keeps_setShellPhase _ n _)
  · rename_i guard table _
    exact (keeps_setShellPhase a n (.opening guard)).trans (Keeps.of_eq (fun _ h => h) rfl rfl)

theorem keeps_openShell (a : Agent σ) (n : ShellNumber) (s : Shell) (guard : Guard) :
    Keeps a (a.openShell n s guard).agent := by
  unfold openShell
  split
  · exact keeps_setShellPhase a n _
  · exact (keeps_setShellPhase a n (.live guard)).trans (Keeps.of_eq (fun _ h => h) rfl rfl)

theorem keeps_turnShell (a : Agent σ) {n : ShellNumber} {s : Shell} (guard : Guard)
    (hs : a.shells[n]? = some s) : Keeps a (a.turnShell n s guard).agent := by
  unfold turnShell
  split
  · exact Keeps.refl a
  · exact (keeps_closeInbox a hs).trans (keeps_setShellPhase _ n _)
  · -- those who wait for a size are looked at first, and then the others
    apply keeps_modifyShell_wakeAll
    intro s' hs' hl m hm
    obtain rfl : s' = s := Option.some.inj (hs'.symm.trans hs)
    obtain ⟨x, hx, rfl⟩ := List.mem_map.mp hm
    rename_i inbox _ _ _
    rcases mem_grant Parcel.isSize (s'.inbox.sizes.length - inbox.sizes.length) _ x hx with h | h
    · exact Or.inr (by simp [h])
    · rcases mem_grant (!·.isSize) (s'.inbox.inputs.length - inbox.inputs.length) _ x h with h | h
      · exact Or.inr (by simp [h])
      · exact Or.inl ⟨hl, List.mem_map.mpr ⟨x, h, rfl⟩⟩

theorem keeps_releaseShell (a : Agent σ) {n : ShellNumber} {s : Shell} (guard : Guard)
    (hs : a.shells[n]? = some s) : Keeps a (a.releaseShell n s guard).agent := by
  have h : Keeps a ((a.closeInbox n s).setShellPhase n .gone) :=
    (keeps_closeInbox a hs).trans (keeps_setShellPhase _ n _)
  exact h.trans (Keeps.of_eq (fun _ h => h) rfl rfl)

theorem keeps_stepShell (a : Agent σ) (n : ShellNumber) : Keeps a (a.stepShell n).agent := by
  unfold stepShell
  split
  · exact Keeps.refl a
  · rename_i s hs
    split
    · exact keeps_claimShell a hs
    · exact keeps_openShell a n s _
    · exact keeps_turnShell a _ hs
    · exact keeps_setShellPhase a n _
    · exact keeps_releaseShell a _ hs
    · exact Keeps.refl a

theorem keeps_stepLog (prefersStream : Bool) (a : Agent σ) (n : Nat) :
    Keeps a (stepLog prefersStream a n).agent := by
  unfold stepLog claimLog openLog readLog releaseLog
  repeat' split
  all_goals exact Keeps.of_eq (fun _ h => h) rfl rfl

/-! ### What leaves the requests alone -/

/-- The requests, the registry and the outbound queue are in `b` what they were in `a`, and nobody
    is forgotten. -/
structure Undisturbed (a b : Agent σ) : Prop where
  registry : b.registry = a.registry
  requests : b.requests = a.requests
  outbound : b.outbound = a.outbound
  keeps : Keeps a b

theorem Undisturbed.refl (a : Agent σ) : Undisturbed a a := ⟨rfl, rfl, rfl, Keeps.refl a⟩

theorem undisturbed_stepShell (a : Agent σ) (n : ShellNumber) :
    Undisturbed a (a.stepShell n).agent where
  registry := by
    unfold stepShell claimShell openShell turnShell releaseShell
    repeat' split
    all_goals rfl
  requests := by
    unfold stepShell claimShell openShell turnShell releaseShell
    repeat' split
    all_goals rfl
  outbound := by
    unfold stepShell claimShell openShell turnShell releaseShell
    repeat' split
    all_goals rfl
  keeps := keeps_stepShell a n

theorem undisturbed_stepLog (prefersStream : Bool) (a : Agent σ) (n : Nat) :
    Undisturbed a (stepLog prefersStream a n).agent where
  registry := by
    unfold stepLog claimLog openLog readLog releaseLog
    repeat' split
    all_goals rfl
  requests := by
    unfold stepLog claimLog openLog readLog releaseLog
    repeat' split
    all_goals rfl
  outbound := by
    unfold stepLog claimLog openLog readLog releaseLog
    repeat' split
    all_goals rfl
  keeps := keeps_stepLog prefersStream a n

theorem undisturbed_onTerminal (a : Agent σ) (stream : Nat)
    (f : Session.Terminal → Session.Terminal) : Undisturbed a (a.onTerminal stream f) := by
  unfold onTerminal
  split
  · exact Undisturbed.refl a
  · rename_i n _
    refine ⟨rfl, rfl, rfl, Keeps.trans (keeps_modifyShell a n _ ?_ ?_) (keeps_wake _ _)⟩
    · exact fun _ h => h
    · exact fun _ _ h => h

theorem undisturbed_onSource (a : Agent σ) (stream : Nat) (f : Session.Source → Session.Source) :
    Undisturbed a (a.onSource stream f) := by
  unfold onSource
  split
  · exact Undisturbed.refl a
  · exact ⟨rfl, rfl, rfl, (keeps_modifyLog a _ _).trans (keeps_wake _ _)⟩

theorem undisturbed_shellRead (a : Agent σ) (stream count : Nat) :
    Undisturbed a (a.shellRead stream count) := by
  unfold shellRead
  exact undisturbed_onTerminal a stream _

theorem undisturbed_shellFail (a : Agent σ) (stream : Nat) (text : String) :
    Undisturbed a (a.shellFail stream text) := by
  unfold shellFail
  exact undisturbed_onTerminal a stream _

theorem undisturbed_shellCloseOutput (a : Agent σ) (stream : Nat) :
    Undisturbed a (a.shellCloseOutput stream) := by
  unfold shellCloseOutput
  exact undisturbed_onTerminal a stream _

theorem undisturbed_shellCloseInput (a : Agent σ) (stream : Nat) :
    Undisturbed a (a.shellCloseInput stream) := by
  unfold shellCloseInput
  exact undisturbed_onTerminal a stream _

theorem undisturbed_shellCloseSizes (a : Agent σ) (stream : Nat) :
    Undisturbed a (a.shellCloseSizes stream) := by
  unfold shellCloseSizes
  exact undisturbed_onTerminal a stream _

theorem undisturbed_logFail (a : Agent σ) (stream : Nat) (text : String) :
    Undisturbed a (a.logFail stream text) := by
  unfold logFail
  exact undisturbed_onSource a stream _

theorem undisturbed_logEnd (a : Agent σ) (stream : Nat) :
    Undisturbed a (a.logEnd stream) := by
  unfold logEnd
  exact undisturbed_onSource a stream _

theorem undisturbed_shellWrite (a : Agent σ) (stream : Nat) (bytes : List UInt8) :
    Undisturbed a (a.shellWrite stream bytes).2 := by
  unfold shellWrite
  repeat' split
  · exact Undisturbed.refl a
  · exact Undisturbed.refl a
  · exact Undisturbed.refl a
  · exact Undisturbed.refl a
  · exact undisturbed_onTerminal a stream fun t => { t with output := t.output.write bytes }

theorem undisturbed_logWrite (a : Agent σ) (stream : Nat) (bytes : List UInt8) :
    Undisturbed a (a.logWrite stream bytes).2 := by
  unfold logWrite
  repeat' split
  · exact Undisturbed.refl a
  · exact Undisturbed.refl a
  · exact Undisturbed.refl a
  · exact Undisturbed.refl a
  · exact undisturbed_onSource a stream (·.write bytes)

theorem undisturbed_collectAll (a : Agent σ) : Undisturbed a a.collectAll where
  registry := rfl
  requests := rfl
  outbound := rfl
  keeps := by
    refine Keeps.trans (b := { a with shells := a.shells.map Shell.collect }) ?_ (keeps_wakeAll _ _)
    refine ⟨fun _ h => h, fun _ h => Or.inl h, fun n shell hn => Or.inl ?_⟩
    obtain ⟨s, hs, hl, hw⟩ := hn
    exact ⟨s.collect, by simp [hs], hl, hw⟩

/-- The clock forgets no sleeping task: what is due is made ready. -/
theorem undisturbed_advance {a b : Agent σ} (h : a.advance? = some b) : Undisturbed a b := by
  unfold advance? at h
  split at h
  · cases h
  · obtain rfl := Option.some.inj h
    refine ⟨rfl, rfl, rfl, ?_, ?_, fun _ _ h => Or.inl h⟩
    · intro t ht
      simp [wakeAll, ht]
    · rintro ⟨d, t⟩ hx
      rename_i deadline _ _ _
      by_cases hd : d ≤ deadline
      · refine Or.inr ?_
        simp only [wakeAll, mem_foldl_enqueue, List.mem_map, List.mem_filter]
        exact Or.inr ⟨(d, t), ⟨hx, by simp [hd]⟩, rfl⟩
      · exact Or.inl (List.mem_filter.mpr ⟨hx, by simp [hd]⟩)

/-- What a quiet move leaves alone. -/
structure Quiet (w w' : World σ) : Prop where
  agent : Undisturbed w.agent w'.agent
  channel : w'.channel = w.channel
  journal : w'.journal = w.journal
  departed : w'.departed = w.departed

theorem quiet_withAgent (w : World σ) {a : Agent σ} (h : Undisturbed w.agent a) :
    Quiet w (w.withAgent a) :=
  ⟨h, rfl, rfl, rfl⟩

theorem Quiet.noteWritten {w w' : World σ} (h : Quiet w w') (task : Option Task)
    (couldWrite : Bool) (bytes : List UInt8) : Quiet w (w'.noteWritten task couldWrite bytes) := by
  unfold World.noteWritten
  repeat' split
  all_goals exact ⟨h.agent, h.channel, h.journal, h.departed⟩

/-- A quiet move leaves the requests alone and is no deed of a task. -/
theorem quiet_step (w : World σ) (m : Move σ) (h : m.IsQuiet) : Quiet w (w.step m) := by
  cases m with
  | frame => exact h.elim
  | take => exact h.elim
  | run => exact h.elim
  | depart => exact h.elim
  | change => exact h.elim
  | stop => exact ⟨Undisturbed.refl w.agent, rfl, rfl, rfl⟩
  | tick =>
    simp only [World.step, World.tick]
    split
    · exact ⟨Undisturbed.refl _, rfl, rfl, rfl⟩
    · rename_i h
      exact quiet_withAgent w (undisturbed_advance h)
  | collect => exact quiet_withAgent w (undisturbed_collectAll w.agent)
  | shellWrite stream bytes =>
    exact (quiet_withAgent w (undisturbed_shellWrite w.agent stream bytes)).noteWritten ..
  | shellRead stream count => exact quiet_withAgent w (undisturbed_shellRead w.agent stream count)
  | shellFail stream text => exact quiet_withAgent w (undisturbed_shellFail w.agent stream text)
  | shellCloseOutput stream => exact quiet_withAgent w (undisturbed_shellCloseOutput w.agent stream)
  | shellCloseInput stream => exact quiet_withAgent w (undisturbed_shellCloseInput w.agent stream)
  | shellCloseSizes stream => exact quiet_withAgent w (undisturbed_shellCloseSizes w.agent stream)
  | logWrite stream bytes =>
    exact (quiet_withAgent w (undisturbed_logWrite w.agent stream bytes)).noteWritten ..
  | logFail stream text => exact quiet_withAgent w (undisturbed_logFail w.agent stream text)
  | logEnd stream => exact quiet_withAgent w (undisturbed_logEnd w.agent stream)
  | cluster change =>
    exact quiet_withAgent w ⟨rfl, rfl, rfl, Keeps.of_eq (fun _ h => h) rfl rfl⟩

end ClusterAgent.Agent
