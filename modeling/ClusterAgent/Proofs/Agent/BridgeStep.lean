/-
  ClusterAgent/Proofs/Agent/BridgeStep.lean
  =========================================
  **One step of a bridge, and one move of the world.**

  `BridgeStep` lists all that the task of a shell session can do in one step: what it
  reports, and what becomes of the table of identifiers, of its phase and of the output
  that waits to be read.  `Changes` lists all that a move can do to the bridges: the task
  of one of them takes a step, the remote side of one of them writes, or none of them
  is concerned.
-/
import ClusterAgent.Proofs.Agent.Bridges

namespace ClusterAgent.Agent

open Handler (ShellNumber)

variable {σ : Type}

def refusal (id : String) : List UInt8 :=
  (SessionExists.message ⟨id⟩).toUTF8.toList

/-- A step of the bridge `n` with this identifier: from a table, a phase and the output that it has
    not read, by the deeds that it reports, to the same afterwards. -/
inductive BridgeStep (n : Nat) (id : String) :
    SessionTable ShellNumber → Phase → List UInt8 → List Deed →
    SessionTable ShellNumber → Phase → List UInt8 → Prop where
  /-- Nothing to report: a terminal size, a piece of input, or nothing at all. -/
  | stay (table : SessionTable ShellNumber) (phase : Phase) (unread : List UInt8) :
      BridgeStep n id table phase unread [] table phase unread
  | refuse (table : SessionTable ShellNumber) (unread : List UInt8)
      (taken : table.contains id = true) :
      BridgeStep n id table .starting unread [.queue (Envelope.exec id (refusal id))]
        table .gone unread
  | claim (table : SessionTable ShellNumber) (unread : List UInt8)
      (free : table.contains id = false) :
      BridgeStep n id table .starting unread [.claim ⟨id, table.next⟩]
        ⟨table.slots ++ [(id, table.next, n)], table.next + 1⟩ (.opening ⟨id, table.next⟩) unread
  | miss (table : SessionTable ShellNumber) (guard : Guard) (unread : List UInt8)
      (failure : Cluster.Failure) :
      BridgeStep n id table (.opening guard) unread [.dial (some failure)]
        table (.closing guard failure.message.toUTF8.toList) unread
  | dial (table : SessionTable ShellNumber) (guard : Guard) (unread : List UInt8) :
      BridgeStep n id table (.opening guard) unread [.dial none] table (.live guard) unread
  | read (table : SessionTable ShellNumber) (guard : Guard) (bytes unread : List UInt8)
      (some_bytes : bytes ≠ []) :
      BridgeStep n id table (.live guard) (bytes ++ unread)
        [.read bytes, .queue (Envelope.exec id bytes)] table (.live guard) unread
  | finish (table : SessionTable ShellNumber) (guard : Guard) (unread : List UInt8)
      (ending : Session.Ending) (drained : ending = .finished → unread = []) :
      BridgeStep n id table (.live guard) unread [.finish ending]
        table (.closing guard (Session.Shell.lastChunk ending)) unread
  | last (table : SessionTable ShellNumber) (guard : Guard) (unread chunk : List UInt8) :
      BridgeStep n id table (.closing guard chunk) unread [.queue (Envelope.exec id chunk)]
        table (.closed guard) unread
  | release (table : SessionTable ShellNumber) (guard : Guard) (unread : List UInt8) :
      BridgeStep n id table (.closed guard) unread [.release guard]
        (table.release guard) .gone unread

/-- What a step `p` of the task of the bridge `n` makes of the bridges, when `n` is `s`. -/
structure Moved (a : Agent σ) (n : Nat) (s : Shell) (p : Progress σ) : Prop where
  own : ∃ s', p.agent.shells[n]? = some s' ∧ s'.id = s.id ∧
    BridgeStep n s.id a.shellTable s.phase s.unread p.deeds p.agent.shellTable s'.phase s'.unread ∧
    (p.goesOn = false → s'.Rests)
  others : ∀ m, m ≠ n → p.agent.shells[m]? = a.shells[m]?
  ready : ∀ t ∈ a.ready, t ∈ p.agent.ready

/-! ### The kinds of steps -/

theorem shells_setShellPhase {a : Agent σ} {n : Nat} {s : Shell} (hs : a.shells[n]? = some s)
    (phase : Phase) (m : Nat) :
    (a.setShellPhase n phase).shells[m]? =
      if n = m then some { s with phase } else a.shells[m]? := by
  unfold setShellPhase modifyShell
  rw [List.getElem?_modify]
  by_cases h : n = m
  · subst h
    simp [hs]
  · simp [h]

theorem shells_closeInbox {a : Agent σ} {n : Nat} {s : Shell} (hs : a.shells[n]? = some s)
    (m : Nat) :
    (a.closeInbox n s).shells[m]? =
      if n = m then some { s with isListening := false, waiting := [] } else a.shells[m]? := by
  unfold closeInbox wakeAll modifyShell
  rw [List.getElem?_modify]
  by_cases h : n = m
  · subst h
    simp [hs]
  · simp [h]

theorem ready_closeInbox (a : Agent σ) (n : Nat) (s : Shell) :
    ∀ t ∈ a.ready, t ∈ (a.closeInbox n s).ready := by
  intro t ht
  simp [closeInbox, wakeAll, modifyShell, ht]

theorem moved_setShellPhase {a b : Agent σ} {n : Nat} {s : Shell} {phase : Phase}
    {deeds : List Deed} {goesOn : Bool} (hs : a.shells[n]? = some s)
    (hshells : b.shells = a.shells) (hready : b.ready = a.ready)
    (hstep : BridgeStep n s.id a.shellTable s.phase s.unread deeds b.shellTable phase s.unread)
    (hrests : goesOn = false → phase = .gone) :
    Moved a n s ⟨b.setShellPhase n phase, deeds, goesOn⟩ where
  own := by
    refine ⟨{ s with phase }, ?_, rfl, hstep, ?_⟩
    · rw [shells_setShellPhase (hshells ▸ hs), if_pos rfl]
    · intro hstops
      exact Or.inl (hrests hstops)
  others m hm := by
    rw [shells_setShellPhase (hshells ▸ hs), if_neg (Ne.symm hm), hshells]
  ready t ht := by
    show t ∈ b.ready
    rw [hready]
    exact ht

/-- A step that closes the inbox and sets the phase. -/
theorem moved_closeInbox {a b : Agent σ} {n : Nat} {s : Shell} {phase : Phase}
    {deeds : List Deed} {goesOn : Bool} (hs : a.shells[n]? = some s)
    (hshells : b.shells = a.shells) (hready : b.ready = a.ready)
    (hstep : BridgeStep n s.id a.shellTable s.phase s.unread deeds b.shellTable phase s.unread)
    (hrests : goesOn = false → phase = .gone) :
    Moved a n s ⟨(b.closeInbox n s).setShellPhase n phase, deeds, goesOn⟩ where
  own := by
    have hclosed := shells_closeInbox (hshells ▸ hs) n
    rw [if_pos rfl] at hclosed
    refine ⟨{ s with isListening := false, waiting := [], phase }, ?_, rfl, hstep, ?_⟩
    · rw [shells_setShellPhase hclosed, if_pos rfl]
    · intro hstops
      exact Or.inl (hrests hstops)
  others m hm := by
    have hclosed := shells_closeInbox (hshells ▸ hs) n
    rw [if_pos rfl] at hclosed
    rw [shells_setShellPhase hclosed, if_neg (Ne.symm hm), shells_closeInbox (hshells ▸ hs),
      if_neg (Ne.symm hm), hshells]
  ready t ht := ready_closeInbox b n s t (hready ▸ ht)

theorem moved_nothing {a : Agent σ} {n : Nat} {s : Shell} (hs : a.shells[n]? = some s)
    (hrests : s.Rests) : Moved a n s (a.rests []) where
  own := ⟨s, hs, rfl, BridgeStep.stay _ _ _, fun _ => hrests⟩
  others _ _ := rfl
  ready _ h := h

/-! ### Every step -/

theorem moved_claimShell {a : Agent σ} {n : Nat} {s : Shell} (hs : a.shells[n]? = some s)
    (hphase : s.phase = .starting) : Moved a n s (a.claimShell n s) := by
  unfold claimShell
  cases htaken : a.shellTable.contains s.id with
  | true =>
    have hregister : a.shellTable.register s.id n = .error ⟨s.id⟩ := by
      simp [SessionTable.register, htaken]
    rw [hregister]
    refine moved_closeInbox hs ?_ ?_ ?_ ?_
    · rfl
    · rfl
    · rw [hphase]
      exact BridgeStep.refuse _ _ htaken
    · intro _
      rfl
  | false =>
    have hregister : a.shellTable.register s.id n = .ok (⟨s.id, a.shellTable.next⟩,
        ⟨a.shellTable.slots ++ [(s.id, a.shellTable.next, n)], a.shellTable.next + 1⟩) := by
      simp [SessionTable.register, htaken]
    rw [hregister]
    refine moved_setShellPhase hs ?_ ?_ ?_ ?_
    · rfl
    · rfl
    · rw [hphase]
      exact BridgeStep.claim _ _ htaken
    · intro hstops
      cases hstops

theorem moved_openShell {a : Agent σ} {n : Nat} {s : Shell} (hs : a.shells[n]? = some s)
    {guard : Guard} (hphase : s.phase = .opening guard) :
    Moved a n s (a.openShell n s guard) := by
  unfold openShell
  split
  · refine moved_setShellPhase hs ?_ ?_ ?_ ?_
    · rfl
    · rfl
    · rw [hphase]
      exact BridgeStep.miss _ _ _ _
    · intro hstops
      cases hstops
  · refine moved_setShellPhase hs ?_ ?_ ?_ ?_
    · rfl
    · rfl
    · rw [hphase]
      exact BridgeStep.dial _ _ _
    · intro hstops
      cases hstops

/-- A turn that does something changes the inbox and the terminal, and grants room. -/
theorem turnShell_went (a : Agent σ) (n : Nat) {s : Shell} (guard : Guard)
    {inbox : Session.Inbox} {terminal : Session.Terminal} {read : List (List UInt8)}
    (h : Session.Shell.turn s.inbox s.terminal = .went inbox terminal read) :
    ∃ (f : Shell → Shell) (ts : List Task),
      a.turnShell n s guard = ((a.modifyShell n f).wakeAll ts).goes
        (read.flatMap fun bytes => [.read bytes, .queue (Envelope.exec s.id bytes)]) ∧
      (∀ t, (f t).id = t.id ∧ (f t).phase = t.phase ∧ (f t).inbox = inbox ∧
        (f t).terminal = terminal) := by
  unfold turnShell
  rw [h]
  exact ⟨_, _, rfl, fun _ => ⟨rfl, rfl, rfl, rfl⟩⟩

theorem turnShell_idle (a : Agent σ) (n : Nat) {s : Shell} (guard : Guard)
    (h : Session.Shell.turn s.inbox s.terminal = .idle) : a.turnShell n s guard = a.rests [] := by
  unfold turnShell
  rw [h]

theorem turnShell_stopped (a : Agent σ) (n : Nat) {s : Shell} (guard : Guard)
    {ending : Session.Ending} (h : Session.Shell.turn s.inbox s.terminal = .stopped ending) :
    a.turnShell n s guard =
      ((a.closeInbox n s).setShellPhase n (.closing guard (Session.Shell.lastChunk ending))).goes
        [.finish ending] := by
  unfold turnShell
  rw [h]

theorem moved_turnShell {a : Agent σ} {n : Nat} {s : Shell} (hs : a.shells[n]? = some s)
    {guard : Guard} (hphase : s.phase = .live guard) :
    Moved a n s (a.turnShell n s guard) := by
  cases hturn : Session.Shell.turn s.inbox s.terminal with
  | idle =>
    rw [turnShell_idle a n guard hturn]
    exact moved_nothing hs (Or.inr ⟨by rw [hphase]; rfl, hturn⟩)
  | stopped ending =>
    rw [turnShell_stopped a n guard hturn]
    refine moved_closeInbox hs ?_ ?_ ?_ ?_
    · rfl
    · rfl
    · rw [hphase]
      apply BridgeStep.finish
      intro hfinished
      rcases Session.Shell.turn_stopped hturn with hended | ⟨hbroken, -⟩
      · exact Session.Source.read_ended hended
      · rw [hfinished] at hbroken
        cases hbroken
    · intro hstops
      cases hstops
  | went inbox terminal read =>
    obtain ⟨f, ts, hagent, hf⟩ := turnShell_went a n guard hturn
    obtain ⟨hid, hphase', -, hterminal⟩ := hf s
    rw [hagent]
    constructor
    · refine ⟨f s, by simp [goes, wakeAll, modifyShell, hs], hid, ?_, ?_⟩
      · have hunread : (f s).unread = terminal.output.pieces.flatten := by
          unfold Shell.unread
          rw [hterminal]
        rw [hphase', hphase, hunread]
        rcases Session.Shell.turn_went hturn with ⟨rfl, houtput⟩ | ⟨bytes, rfl, hbytes, houtput⟩
        · rw [show s.unread = terminal.output.pieces.flatten by unfold Shell.unread; rw [houtput]]
          exact BridgeStep.stay _ _ _
        · rw [show s.unread = bytes ++ terminal.output.pieces.flatten from houtput]
          exact BridgeStep.read _ _ _ _ hbytes
      · intro hstops
        cases hstops
    · intro m hm
      simp [goes, wakeAll, modifyShell, Ne.symm hm]
    · intro t ht
      simp [goes, wakeAll, modifyShell, ht]

theorem moved_stepShell {a : Agent σ} {n : Nat} {s : Shell} (hs : a.shells[n]? = some s) :
    Moved a n s (a.stepShell n) := by
  unfold stepShell
  rw [hs]
  dsimp only
  split
  · rename_i hphase
    exact moved_claimShell hs hphase
  · rename_i guard hphase
    exact moved_openShell hs hphase
  · rename_i guard hphase
    exact moved_turnShell hs hphase
  · rename_i guard last hphase
    refine moved_setShellPhase hs ?_ ?_ ?_ ?_
    · rfl
    · rfl
    · rw [hphase]
      exact BridgeStep.last _ _ _ _
    · intro hstops
      cases hstops
  · rename_i guard hphase
    refine moved_closeInbox hs ?_ ?_ ?_ ?_
    · rfl
    · rfl
    · rw [hphase]
      exact BridgeStep.release _ _ _
    · intro _
      rfl
  · rename_i hphase
    exact moved_nothing hs (Or.inl hphase)

/-! ### Moves of the world -/

/-- What the remote side of the stream of a task wrote. -/
def World.writtenTo (w : World σ) (t : Task) : List UInt8 :=
  (w.written.filter (·.1 = t)).flatMap Prod.snd

def Shell.gets (bytes : List UInt8) (s : Shell) : Shell :=
  { s with terminal := { s.terminal with output := s.terminal.output.write bytes } }

/-- What becomes of the bridges between two worlds. -/
inductive Changes (w w' : World σ) : Prop where
  | beside (agent : Beside w.agent w'.agent)
      (deeds : ∀ n, w'.deedsOf (.shell n) = w.deedsOf (.shell n))
      (written : ∀ n, w'.writtenTo (.shell n) = w.writtenTo (.shell n))
  /-- The remote side of a bridge writes. -/
  | wrote (n : Nat) (s : Shell) (bytes : List UInt8) (was : w.agent.shells[n]? = some s)
      (live : s.phase.isLive = true)
      (agent : w'.agent = (w.agent.modifyShell n (Shell.gets bytes)).wake (.shell n))
      (deeds : ∀ m, w'.deedsOf (.shell m) = w.deedsOf (.shell m))
      (written : ∀ m, w'.writtenTo (.shell m) =
        w.writtenTo (.shell m) ++ if n = m then bytes else [])
  | own (n : Nat) (s : Shell) (p : Progress σ) (was : w.agent.shells[n]? = some s)
      (moved : Moved (w.agent.withoutTask (.shell n)) n s p)
      (agent : w'.agent = p.after (.shell n))
      (deeds : ∀ m, w'.deedsOf (.shell m) =
        w.deedsOf (.shell m) ++ if n = m then p.deeds else [])
      (written : ∀ m, w'.writtenTo (.shell m) = w.writtenTo (.shell m))

theorem changes_withAgent (w : World σ) {a : Agent σ} (h : Beside w.agent a) :
    Changes w (w.withAgent a) :=
  .beside h (fun _ => rfl) (fun _ => rfl)

theorem changes_refl (w : World σ) : Changes w w :=
  .beside (Beside.refl _) (fun _ => rfl) (fun _ => rfl)

theorem changes_runTask (w : World σ) (t : Task) (prefersStream : Bool) :
    Changes w (w.runTask t prefersStream) := by
  by_cases ht : t ∈ w.agent.ready
  · obtain ⟨hagent, -, -⟩ := w.runTask_ready ht prefersStream
    have hdeeds := w.deedsOf_runTask ht prefersStream
    have hwritten : (w.runTask t prefersStream).written = w.written := by
      unfold World.runTask
      rw [if_pos ht]
      rfl
    have hwrittenTo : ∀ n, (w.runTask t prefersStream).writtenTo (.shell n) =
        w.writtenTo (.shell n) := by
      intro n
      unfold World.writtenTo
      rw [hwritten]
    by_cases hshell : ∃ n, t = .shell n
    · obtain ⟨n, rfl⟩ := hshell
      cases hs : w.agent.shells[n]? with
      | some s =>
        refine .own n s _ hs (moved_stepShell hs) hagent ?_ hwrittenTo
        intro m
        rw [hdeeds]
        simp [stepOf, step]
      | none =>
        have hnothing : w.agent.stepOf prefersStream (.shell n) =
            (w.agent.withoutTask (.shell n)).rests [] := by
          simp [stepOf, step, stepShell, hs]
        rw [hnothing] at hagent hdeeds
        refine .beside ?_ ?_ hwrittenTo
        · rw [hagent]
          refine ⟨rfl, ?_, ?_⟩
          · intro m s hm
            refine ⟨s, hm, rfl, rfl, rfl, fun h => h.imp_right fun hready => ?_⟩
            have hne : Task.shell m ≠ .shell n := by
              intro heq
              cases heq
              cases hs.symm.trans hm
            exact (List.mem_erase_of_ne hne).mpr hready
          · intro m hm s hm'
            cases hm.symm.trans hm'
        · intro m
          rw [hdeeds]
          simp [rests]
    · have hne : ∀ n, t ≠ .shell n := fun n h => hshell ⟨n, h⟩
      refine .beside ?_ ?_ hwrittenTo
      · rw [hagent]
        exact beside_runTask _ hne prefersStream
      · intro n
        rw [hdeeds, if_neg (hne n), List.append_nil]
  · rw [w.runTask_of_not_mem ht]
    exact changes_refl w

theorem agent_noteWritten (w : World σ) (task : Option Task) (couldWrite : Bool)
    (bytes : List UInt8) : (w.noteWritten task couldWrite bytes).agent = w.agent := by
  unfold World.noteWritten
  repeat' split
  all_goals rfl

theorem deedsOf_noteWritten (w : World σ) (task : Option Task) (couldWrite : Bool)
    (bytes : List UInt8) (t : Task) :
    (w.noteWritten task couldWrite bytes).deedsOf t = w.deedsOf t := by
  unfold World.noteWritten
  repeat' split
  all_goals rfl

theorem writtenTo_noteWritten (w : World σ) (task : Option Task) (couldWrite : Bool)
    (bytes : List UInt8) (t : Task) :
    (w.noteWritten task couldWrite bytes).writtenTo t =
      w.writtenTo t ++ if task = some t ∧ couldWrite = true then bytes else [] := by
  unfold World.noteWritten
  cases task with
  | none => simp
  | some u =>
    cases couldWrite with
    | false => simp
    | true =>
      by_cases h : u = t
      · subst h
        simp [World.writtenTo]
      · simp [World.writtenTo, h]

/-- A remote side writes to a session that has a stream, or nothing happens. -/
theorem changes_shellWrite (w : World σ) (stream : Nat) (bytes : List UInt8) :
    Changes w (w.shellWrite stream bytes) := by
  have hquiet : ∀ couldWrite, w.agent.shellWrite stream bytes = (couldWrite, w.agent) →
      (couldWrite = true → bytes = []) → Changes w (w.shellWrite stream bytes) := by
    intro couldWrite hwrite hnothing
    unfold World.shellWrite
    rw [hwrite]
    refine .beside ?_ ?_ ?_
    · rw [agent_noteWritten]
      exact Beside.refl _
    · intro n
      rw [deedsOf_noteWritten]
      rfl
    · intro n
      rw [writtenTo_noteWritten]
      have hnone : (if (w.agent.openedShells[stream]?.map Task.shell = some (.shell n)) ∧
          couldWrite = true then bytes else []) = [] := by
        split
        · rename_i h
          exact hnothing h.2
        · rfl
      rw [hnone, List.append_nil]
      rfl
  cases hopened : w.agent.openedShell? stream with
  | none =>
    apply hquiet false
    · simp [shellWrite, hopened]
    · intro h
      cases h
  | some opened =>
    obtain ⟨k, s⟩ := opened
    by_cases hended : s.terminal.output.ending.isSome = true
    · apply hquiet false
      · simp [shellWrite, hopened, hended]
      · intro h
        cases h
    · by_cases hbytes : bytes = []
      · apply hquiet true
        · simp [shellWrite, hopened, hended, hbytes]
        · intro _
          exact hbytes
      · cases hlive : s.phase.isLive with
        | false =>
          apply hquiet false
          · simp [shellWrite, hopened, hended, hbytes, hlive]
          · intro h
            cases h
        | true =>
          have hwrite : w.agent.shellWrite stream bytes =
              (true, w.agent.onTerminal stream
                fun t => { t with output := t.output.write bytes }) := by
            simp [shellWrite, hopened, hended, hbytes, hlive]
          unfold openedShell? at hopened
          simp only [Option.bind_eq_bind, Option.bind_eq_some_iff, Option.some.injEq,
            Prod.mk.injEq] at hopened
          obtain ⟨n, hn, s', hs, hk, rfl⟩ := hopened
          unfold World.shellWrite
          rw [hwrite]
          refine .wrote n s' bytes hs hlive ?_ ?_ ?_
          · rw [agent_noteWritten]
            show w.agent.onTerminal stream
              (fun t => { t with output := t.output.write bytes }) = _
            unfold onTerminal
            rw [hn]
            rfl
          · intro m
            rw [deedsOf_noteWritten]
            rfl
          · intro m
            rw [writtenTo_noteWritten, hn]
            simp [World.writtenTo, World.withAgent]

theorem changes_logWrite (w : World σ) (stream : Nat) (bytes : List UInt8) :
    Changes w (w.logWrite stream bytes) := by
  unfold World.logWrite
  refine .beside ?_ ?_ ?_
  · rw [agent_noteWritten]
    exact beside_logWrite w.agent stream bytes
  · intro n
    rw [deedsOf_noteWritten]
    rfl
  · intro n
    rw [writtenTo_noteWritten]
    simp [World.writtenTo, World.withAgent]

theorem changes_step (w : World σ) (m : Move σ) : Changes w (w.step m) := by
  cases m with
  | frame bytes =>
    simp only [World.step, World.hear]
    split
    · exact changes_refl w
    · exact .beside (Beside.refl _) (fun _ => rfl) (fun _ => rfl)
  | take =>
    simp only [World.step, World.take]
    split
    · exact changes_refl w
    · rename_i r rest _
      split
      · rename_i intake hoffer
        unfold Intake.offer at hoffer
        split at hoffer
        · cases hoffer
          refine .beside ?_ (fun _ => rfl) (fun _ => rfl)
          refine Beside.of_eq rfl rfl fun n h => ?_
          simp only [World.agent, receive, wake] at h ⊢
          exact (mem_enqueue ..).mpr (.inl h)
        · cases hoffer
      · exact changes_refl w
  | stop => exact .beside (Beside.refl _) (fun _ => rfl) (fun _ => rfl)
  | run t prefersStream => exact changes_runTask w t prefersStream
  | tick =>
    simp only [World.step, World.tick]
    split
    · exact changes_refl w
    · rename_i h
      exact changes_withAgent w (beside_advance h)
  | depart =>
    simp only [World.step, World.depart]
    split
    · exact changes_refl w
    · exact .beside (Beside.of_eq rfl rfl fun _ h => h) (fun _ => rfl) (fun _ => rfl)
  | collect => exact changes_withAgent w (beside_collectAll w.agent)
  | shellWrite stream bytes => exact changes_shellWrite w stream bytes
  | shellRead stream count =>
    exact changes_withAgent w (beside_onTerminal _ _ _ fun _ => rfl)
  | shellFail stream text =>
    exact changes_withAgent w (beside_onTerminal _ _ _ fun _ => rfl)
  | shellCloseOutput stream =>
    exact changes_withAgent w (beside_onTerminal _ _ _ fun _ => rfl)
  | shellCloseInput stream =>
    exact changes_withAgent w (beside_onTerminal _ _ _ fun _ => rfl)
  | shellCloseSizes stream =>
    exact changes_withAgent w (beside_onTerminal _ _ _ fun _ => rfl)
  | logWrite stream bytes => exact changes_logWrite w stream bytes
  | logFail stream text => exact changes_withAgent w (beside_onSource _ _ _)
  | logEnd stream => exact changes_withAgent w (beside_onSource _ _ _)
  | change kind change object =>
    apply changes_withAgent
    unfold onChange
    split
    · exact Beside.refl _
    · exact Beside.of_eq rfl rfl fun _ h => h
  | cluster change => exact changes_withAgent w (Beside.of_eq rfl rfl fun _ h => h)

end ClusterAgent.Agent
