/-
  ClusterAgent/Proofs/Agent/LogBridges.lean
  =========================================
  **What happens to the bridges of log sessions.**

  A log session is moved by its own task only, and `LogStep` lists all that the task can
  do in one step.  A handler may add a session or stop one that the table names, and the
  remote side may write or end; whoever is touched in this way is woken (`LogBeside`).  `logChanges_step` says
  that nothing else happens in a move of the world.
-/
import ClusterAgent.Proofs.Agent.BridgeStep
import ClusterAgent.Proofs.Agent.Requests

namespace ClusterAgent.Agent

open Handler (Program ShellNumber)

variable {σ : Type}

/-- What the remote side has written and the bridge has not read. -/
def Log.unread (l : Log) : List UInt8 :=
  l.source.pieces.flatten

def Log.Rests (l : Log) : Prop :=
  l.phase = .gone ∨ l.phase.isLive = true ∧ l.stopped = false ∧ l.source.read = .nothing

/-! ### What others do -/

/-- Somebody else did something to a session; nobody takes back that it is stopped. -/
structure Touched (l l' : Log) : Prop where
  id : l'.id = l.id
  target : l'.target = l.target
  phase : l'.phase = l.phase
  unread : l'.unread = l.unread
  stopped : l.stopped = true → l'.stopped = true

theorem Touched.refl (l : Log) : Touched l l :=
  ⟨rfl, rfl, rfl, rfl, fun h => h⟩

/-- Between `a` and `b` no log session was moved by its own task; new ones may have come. -/
structure LogBeside (a b : Agent σ) : Prop where
  table : b.logTable = a.logTable
  old : ∀ (n : Nat) l, a.logs[n]? = some l →
    ∃ l', b.logs[n]? = some l' ∧ Touched l l' ∧
      (l.Rests ∨ Task.log n ∈ a.ready → l'.Rests ∨ Task.log n ∈ b.ready)
  new : ∀ n : Nat, a.logs[n]? = none → ∀ l', b.logs[n]? = some l' →
    l'.phase = .starting ∧ l'.stopped = false ∧ l'.unread = [] ∧ Task.log n ∈ b.ready
  /-- Whoever is stopped is named by the table. -/
  named : ∀ (n : Nat) l l', a.logs[n]? = some l → b.logs[n]? = some l' → l.stopped = false →
    l'.stopped = true → ∃ id, a.logTable.get? id = some n

theorem LogBeside.of_eq {a b : Agent σ} (hready : ∀ n, Task.log n ∈ a.ready → Task.log n ∈ b.ready)
    (htable : b.logTable = a.logTable) (hlogs : b.logs = a.logs) : LogBeside a b where
  table := htable
  old n l hl := ⟨l, by rw [hlogs]; exact hl, Touched.refl l, Or.imp_right (hready n)⟩
  new n hnone l' hl' := by
    rw [hlogs, hnone] at hl'
    cases hl'
  named n l l' hl hl' hbefore hafter := by
    rw [hlogs, hl] at hl'
    cases hl'
    cases hbefore.symm.trans hafter

theorem LogBeside.of_modify {a b : Agent σ} {n : Nat} {f : Log → Log}
    (hf : ∀ l, Touched l (f l))
    (hstops : (∀ l, (f l).stopped = l.stopped) ∨ ∃ id, a.logTable.get? id = some n)
    (hready : ∀ m, Task.log m ∈ a.ready → Task.log m ∈ b.ready)
    (hwoken : Task.log n ∈ b.ready) (htable : b.logTable = a.logTable)
    (hlogs : b.logs = a.logs.modify n f) : LogBeside a b where
  table := htable
  old m l hl := by
    by_cases hm : n = m
    · subst hm
      exact ⟨f l, by simp [hlogs, hl], hf l, fun _ => Or.inr hwoken⟩
    · exact ⟨l, by simp [hlogs, hl, hm], Touched.refl l, Or.imp_right (hready m)⟩
  new m hnone l' hl' := by
    rw [hlogs, List.getElem?_modify, hnone] at hl'
    cases hl'
  named m l l' hl hl' hbefore hafter := by
    by_cases hm : n = m
    · subst hm
      rcases hstops with hkept | hnamed
      · obtain rfl : f l = l' := by simpa [hlogs, hl] using hl'
        rw [hkept, hbefore] at hafter
        cases hafter
      · exact hnamed
    · obtain rfl : l = l' := by simpa [hlogs, hl, hm] using hl'
      cases hbefore.symm.trans hafter

theorem LogBeside.of_append {a b : Agent σ} (id : String) (target : Cluster.Target)
    (hready : ∀ m, Task.log m ∈ a.ready → Task.log m ∈ b.ready)
    (hwoken : Task.log a.logs.length ∈ b.ready) (htable : b.logTable = a.logTable)
    (hlogs : b.logs = a.logs ++ [⟨id, target, .starting, Session.Source.fresh, false⟩]) :
    LogBeside a b where
  table := htable
  old m l hl := by
    refine ⟨l, ?_, Touched.refl l, Or.imp_right (hready m)⟩
    rw [hlogs]
    exact getElem?_append_left_of_some hl
  new m hnone l' hl' := by
    have hle : a.logs.length ≤ m := List.getElem?_eq_none_iff.mp hnone
    rw [hlogs, List.getElem?_append_right hle] at hl'
    obtain ⟨hlt, rfl⟩ := List.getElem?_eq_some_iff.mp hl'
    have hm : m = a.logs.length := by
      rw [List.length_singleton] at hlt
      omega
    subst hm
    simp [Log.unread, Session.Source.fresh, hwoken]
  named m l l' hl hl' hbefore hafter := by
    rw [hlogs, getElem?_append_left_of_some hl] at hl'
    cases hl'
    cases hbefore.symm.trans hafter

theorem LogBeside.refl (a : Agent σ) : LogBeside a a :=
  .of_eq (fun _ h => h) rfl rfl

theorem logs_after (p : Progress σ) (t : Task) : (p.after t).logs = p.agent.logs := by
  unfold Progress.after
  split <;> rfl

theorem logTable_after (p : Progress σ) (t : Task) : (p.after t).logTable = p.agent.logTable := by
  unfold Progress.after
  split <;> rfl

/-- The rest of a step queues envelopes and may make its own task ready again. -/
theorem LogBeside.after {a : Agent σ} {p : Progress σ} (h : LogBeside a p.agent) (t : Task) :
    LogBeside a (p.after t) where
  table := (logTable_after p t).trans h.table
  old n l hl := by
    obtain ⟨l', hl', htouched, hattended⟩ := h.old n l hl
    rw [logs_after]
    exact ⟨l', hl', htouched, fun hl => (hattended hl).imp_right ((keeps_after p t).ready _)⟩
  new n hnone l' hl' := by
    rw [logs_after] at hl'
    obtain ⟨hphase, hstopped, hunread, hready⟩ := h.new n hnone l' hl'
    exact ⟨hphase, hstopped, hunread, (keeps_after p t).ready _ hready⟩
  named n l l' hl hl' := by
    rw [logs_after] at hl'
    exact h.named n l l' hl hl'

theorem logs_stepShell (a : Agent σ) (n : Nat) :
    (a.stepShell n).agent.logs = a.logs ∧ (a.stepShell n).agent.logTable = a.logTable := by
  unfold stepShell claimShell openShell turnShell releaseShell
  repeat' split
  all_goals exact ⟨rfl, rfl⟩

theorem logs_stepRequest (a : Agent σ) (n : Nat) :
    (a.stepRequest n).agent.logs = a.logs ∧ (a.stepRequest n).agent.logTable = a.logTable := by
  unfold stepRequest reply
  repeat' split
  all_goals exact ⟨rfl, rfl⟩

theorem logs_hand (a : Agent σ) (n shell : Nat) (p : Parcel) (next : Bool → Program Response) :
    (a.hand n shell p next).agent.logs = a.logs ∧
      (a.hand n shell p next).agent.logTable = a.logTable := by
  unfold hand deliver
  cases hshell : a.shells[shell]? with
  | none => exact ⟨rfl, rfl⟩
  | some s =>
    by_cases hlistens : s.isListening <;> by_cases hroom : s.hasRoom p <;>
      simp [hlistens, hroom, continueWith, goes, rests, setStage, modifyShell, wake]

/-- A handler adds a session, stops one, or has nothing to do with log sessions. -/
theorem logBeside_ask {a : Agent σ} {n : Nat} {rest : Program Response}
    (hkeeps : Keeps a (a.ask n rest).agent) : LogBeside a (a.ask n rest).agent := by
  have hready : ∀ m, Task.log m ∈ a.ready → Task.log m ∈ (a.ask n rest).agent.ready :=
    fun m h => hkeeps.ready _ h
  cases rest with
  | done r => exact .of_eq hready rfl rfl
  | fail p => exact .of_eq hready rfl rfl
  | ask act next =>
    cases act with
    | cluster call => exact .of_eq hready rfl rfl
    | pause ms => exact .of_eq hready rfl rfl
    | setGate isOpen => exact .of_eq hready rfl rfl
    | openShell id target command size => exact .of_eq hready rfl rfl
    | findShell id => exact .of_eq hready rfl rfl
    | sendResize shell size =>
      obtain ⟨hlogs, htable⟩ := logs_hand a n shell (.size size) next
      exact .of_eq hready htable hlogs
    | sendInput shell bytes =>
      obtain ⟨hlogs, htable⟩ := logs_hand a n shell (.input bytes) next
      exact .of_eq hready htable hlogs
    | openLog id target =>
      refine .of_append id target hready ?_ rfl rfl
      simp [ask, continueWith, goes, setStage, addLog, wake]
    | cancelLog id =>
      simp only [ask] at hready ⊢
      cases hfound : a.logTable.get? id with
      | none =>
        rw [hfound] at hready
        exact .of_eq hready rfl rfl
      | some l =>
        rw [hfound] at hready
        refine .of_modify (n := l) (f := fun l => { l with stopped := true }) ?_
          (.inr ⟨id, hfound⟩) hready ?_ rfl rfl
        · intro l
          exact ⟨rfl, rfl, rfl, rfl, fun _ => rfl⟩
        · simp [continueWith, goes, setStage, stopLog, wake]

theorem logBeside_stepHandler {a : Agent σ} {n : Nat} (hkeeps : Keeps a (a.stepHandler n).agent) :
    LogBeside a (a.stepHandler n).agent := by
  unfold stepHandler at hkeeps ⊢
  split at hkeeps
  · exact logBeside_ask hkeeps
  · repeat' split
    all_goals
      refine .of_eq ?_ rfl rfl
      intro m hm
      simp [continueWith, goes, rests, setStage, modifyShell, wake, hm]
  · exact LogBeside.refl a

/-- A step of a task that is no log session. -/
theorem logBeside_runTask {a : Agent σ} {t : Task} (ht : ∀ n, t ≠ .log n) {prefersStream : Bool}
    (hkeeps : Keeps (a.withoutTask t) (a.stepOf prefersStream t).agent) :
    LogBeside a ((a.stepOf prefersStream t).after t) := by
  have herase : ∀ m, Task.log m ∈ a.ready → Task.log m ∈ (a.withoutTask t).ready :=
    fun m h => (List.mem_erase_of_ne (ht m).symm).mpr h
  have hbeside : LogBeside (a.withoutTask t) (a.stepOf prefersStream t).agent := by
    cases t with
    | request n =>
      obtain ⟨hlogs, htable⟩ := logs_stepRequest (a.withoutTask (.request n)) n
      exact .of_eq (fun m h => hkeeps.ready _ h) htable hlogs
    | shell n =>
      obtain ⟨hlogs, htable⟩ := logs_stepShell (a.withoutTask (.shell n)) n
      exact .of_eq (fun m h => hkeeps.ready _ h) htable hlogs
    | handler n => exact logBeside_stepHandler hkeeps
    | log n => exact absurd rfl (ht n)
  refine LogBeside.after (a := a) ⟨hbeside.table, ?_, hbeside.new, hbeside.named⟩ t
  intro n l hl
  obtain ⟨l', hl', htouched, hattended⟩ := hbeside.old n l hl
  exact ⟨l', hl', htouched, fun h => hattended (h.imp_right (herase n))⟩

theorem logBeside_onSource (a : Agent σ) (stream : Nat) (f : Session.Source → Session.Source)
    (hf : ∀ s : Session.Source, (f s).pieces = s.pieces) : LogBeside a (a.onSource stream f) := by
  unfold onSource
  split
  · exact LogBeside.refl a
  · rename_i n _
    refine .of_modify (n := n) (f := fun l => { l with source := f l.source }) ?_
      (.inl fun _ => rfl) ?_ ?_ rfl rfl
    · intro l
      refine ⟨rfl, rfl, rfl, ?_, fun h => h⟩
      unfold Log.unread
      rw [hf]
    · intro m hm
      simp [modifyLog, wake, hm]
    · simp [modifyLog, wake]

/-- What happens at a terminal leaves the log sessions and their table alone. -/
theorem logBeside_onTerminal (a : Agent σ) (stream : Nat)
    (f : Session.Terminal → Session.Terminal) : LogBeside a (a.onTerminal stream f) := by
  have hkeeps := (undisturbed_onTerminal a stream f).keeps
  refine .of_eq (fun n hn => hkeeps.ready _ hn) ?_ ?_
  all_goals
    unfold onTerminal
    split <;> rfl

theorem logBeside_shellWrite (a : Agent σ) (stream : Nat) (bytes : List UInt8) :
    LogBeside a (a.shellWrite stream bytes).2 := by
  unfold shellWrite
  repeat' split
  · exact LogBeside.refl a
  · exact LogBeside.refl a
  · exact LogBeside.refl a
  · exact LogBeside.refl a
  · exact logBeside_onTerminal a stream fun t => { t with output := t.output.write bytes }

/-! ### What a session does -/

/-- A step of the log session `n` with this identifier: from a table, a phase and the output that it
    has not read, by the deeds that it reports, to the same afterwards. -/
inductive LogStep (n : Nat) (id : String) (stopped : Bool) :
    SessionTable Nat → Phase → List UInt8 → List Deed →
    SessionTable Nat → Phase → List UInt8 → Prop where
  | stay (table : SessionTable Nat) (phase : Phase) (unread : List UInt8) :
      LogStep n id stopped table phase unread [] table phase unread
  | refuse (table : SessionTable Nat) (unread : List UInt8) (taken : table.contains id = true) :
      LogStep n id stopped table .starting unread [.queue (Envelope.log id (refusal id))]
        table .gone unread
  | claim (table : SessionTable Nat) (unread : List UInt8) (free : table.contains id = false) :
      LogStep n id stopped table .starting unread [.claim ⟨id, table.next⟩]
        ⟨table.slots ++ [(id, table.next, n)], table.next + 1⟩ (.opening ⟨id, table.next⟩) unread
  | abandon (table : SessionTable Nat) (guard : Guard) (unread : List UInt8)
      (is_stopped : stopped = true) :
      LogStep n id stopped table (.opening guard) unread [] table (.closed guard) unread
  | miss (table : SessionTable Nat) (guard : Guard) (unread : List UInt8)
      (failure : Cluster.Failure) :
      LogStep n id stopped table (.opening guard) unread
        [.dial (some failure), .queue (Envelope.log id failure.message.toUTF8.toList)]
        table (.closed guard) unread
  | dial (table : SessionTable Nat) (guard : Guard) (unread : List UInt8) :
      LogStep n id stopped table (.opening guard) unread [.dial none] table (.live guard) unread
  | stop (table : SessionTable Nat) (guard : Guard) (unread : List UInt8)
      (is_stopped : stopped = true) :
      LogStep n id stopped table (.live guard) unread [] table (.closed guard) unread
  | read (table : SessionTable Nat) (guard : Guard) (bytes unread : List UInt8)
      (some_bytes : bytes ≠ []) :
      LogStep n id stopped table (.live guard) (bytes ++ unread)
        [.read bytes, .queue (Envelope.log id bytes)] table (.live guard) unread
  | finish (table : SessionTable Nat) (guard : Guard) :
      LogStep n id stopped table (.live guard) [] [.finish .finished] table (.closed guard) []
  | broke (table : SessionTable Nat) (guard : Guard) (text : String) :
      LogStep n id stopped table (.live guard) []
        [.finish (.failed text), .queue (Envelope.log id text.toUTF8.toList)]
        table (.closed guard) []
  | release (table : SessionTable Nat) (guard : Guard) (phase : Phase) (unread : List UInt8)
      (ending : phase = .closed guard ∨ ∃ last, phase = .closing guard last) :
      LogStep n id stopped table phase unread [.release guard] (table.release guard) .gone unread

/-- What a step `p` of the task of the session `n` makes of the sessions, when `n` is `l`. -/
structure LogMoved (a : Agent σ) (n : Nat) (l : Log) (p : Progress σ) : Prop where
  own : ∃ l', p.agent.logs[n]? = some l' ∧ l'.id = l.id ∧ l'.stopped = l.stopped ∧
    LogStep n l.id l.stopped a.logTable l.phase l.unread p.deeds p.agent.logTable l'.phase
      l'.unread ∧
    (p.goesOn = false → l'.Rests)
  others : ∀ m, m ≠ n → p.agent.logs[m]? = a.logs[m]?
  ready : p.agent.ready = a.ready

/-- A step that changes one session, and perhaps the table. -/
theorem logMoved_of_modify {a b : Agent σ} {n : Nat} {l : Log} (f : Log → Log)
    {deeds : List Deed} {goesOn : Bool} (hl : a.logs[n]? = some l) (hid : (f l).id = l.id)
    (hstopped : (f l).stopped = l.stopped) (hlogs : b.logs = a.logs.modify n f)
    (hready : b.ready = a.ready)
    (hstep : LogStep n l.id l.stopped a.logTable l.phase l.unread deeds b.logTable (f l).phase
      (f l).unread) (hrests : goesOn = false → (f l).phase = .gone) :
    LogMoved a n l ⟨b, deeds, goesOn⟩ where
  own := ⟨f l, by simp [hlogs, hl], hid, hstopped, hstep, fun h => Or.inl (hrests h)⟩
  others m hm := by simp [hlogs, Ne.symm hm]
  ready := hready

theorem logMoved_setLogPhase {a b : Agent σ} {n : Nat} {l : Log} {phase : Phase}
    {deeds : List Deed} {goesOn : Bool} (hl : a.logs[n]? = some l) (hlogs : b.logs = a.logs)
    (hready : b.ready = a.ready)
    (hstep : LogStep n l.id l.stopped a.logTable l.phase l.unread deeds b.logTable phase l.unread)
    (hrests : goesOn = false → phase = .gone) :
    LogMoved a n l ⟨b.setLogPhase n phase, deeds, goesOn⟩ := by
  refine logMoved_of_modify (fun l => { l with phase }) hl rfl rfl ?_ hready hstep hrests
  simp [setLogPhase, modifyLog, hlogs]

theorem logMoved_nothing {a : Agent σ} {n : Nat} {l : Log} (hl : a.logs[n]? = some l)
    (hrests : l.Rests) : LogMoved a n l (a.rests []) where
  own := ⟨l, hl, rfl, rfl, LogStep.stay _ _ _, fun _ => hrests⟩
  others _ _ := rfl
  ready := rfl

theorem logMoved_claimLog {a : Agent σ} {n : Nat} {l : Log} (hl : a.logs[n]? = some l)
    (hphase : l.phase = .starting) : LogMoved a n l (a.claimLog n l) := by
  unfold claimLog
  cases htaken : a.logTable.contains l.id with
  | true =>
    have hregister : a.logTable.register l.id n = .error ⟨l.id⟩ := by
      simp [SessionTable.register, htaken]
    rw [hregister]
    refine logMoved_setLogPhase hl rfl rfl ?_ fun _ => rfl
    rw [hphase]
    exact LogStep.refuse _ _ htaken
  | false =>
    have hregister : a.logTable.register l.id n = .ok (⟨l.id, a.logTable.next⟩,
        ⟨a.logTable.slots ++ [(l.id, a.logTable.next, n)], a.logTable.next + 1⟩) := by
      simp [SessionTable.register, htaken]
    rw [hregister]
    refine logMoved_setLogPhase hl rfl rfl ?_ (by simp)
    rw [hphase]
    exact LogStep.claim _ _ htaken

theorem logMoved_openLog {a : Agent σ} {n : Nat} {l : Log} (hl : a.logs[n]? = some l)
    {guard : Guard} (hphase : l.phase = .opening guard) : LogMoved a n l (a.openLog n l guard) := by
  unfold openLog
  split
  · refine logMoved_setLogPhase hl rfl rfl ?_ nofun
    rw [hphase]
    exact LogStep.miss _ _ _ _
  · refine logMoved_setLogPhase hl rfl rfl ?_ nofun
    rw [hphase]
    exact LogStep.dial _ _ _

theorem logMoved_readLog {a : Agent σ} {n : Nat} {l : Log} (hl : a.logs[n]? = some l)
    {guard : Guard} (hphase : l.phase = .live guard) (hstopped : l.source.read = .nothing →
      l.stopped = false) : LogMoved a n l (a.readLog n l guard) := by
  unfold readLog
  split
  · rename_i bytes source hread
    obtain ⟨hbytes, hsplit⟩ := Session.Source.read_bytes hread
    refine logMoved_of_modify (fun t => { t with source }) hl rfl rfl rfl rfl ?_ nofun
    rw [hphase, show l.unread = bytes ++ source.pieces.flatten from hsplit]
    exact LogStep.read _ _ _ _ hbytes
  · rename_i hread
    refine logMoved_setLogPhase hl rfl rfl ?_ nofun
    rw [hphase, show l.unread = [] from Session.Source.read_ended hread]
    exact LogStep.finish _ _
  · rename_i text hread
    refine logMoved_setLogPhase hl rfl rfl ?_ nofun
    rw [hphase, show l.unread = [] from Session.Source.read_ended hread]
    exact LogStep.broke _ _ _
  · rename_i hread
    exact logMoved_nothing hl (Or.inr ⟨by rw [hphase]; rfl, hstopped hread, hread⟩)

theorem logMoved_releaseLog {a : Agent σ} {n : Nat} {l : Log} (hl : a.logs[n]? = some l)
    {guard : Guard} (hover : l.phase = .closed guard ∨ ∃ last, l.phase = .closing guard last) :
    LogMoved a n l (a.releaseLog n guard) := by
  unfold releaseLog
  refine logMoved_setLogPhase hl rfl rfl ?_ fun _ => rfl
  exact LogStep.release _ _ _ _ hover

theorem logMoved_stepLog {a : Agent σ} {n : Nat} {l : Log} (hl : a.logs[n]? = some l)
    (prefersStream : Bool) : LogMoved a n l (stepLog prefersStream a n) := by
  unfold stepLog
  rw [hl]
  dsimp only
  split
  · rename_i hphase
    exact logMoved_claimLog hl hphase
  · rename_i guard hphase
    split
    · rename_i hstops
      refine logMoved_setLogPhase hl rfl rfl ?_ nofun
      rw [hphase]
      exact LogStep.abandon _ _ _ (Bool.and_eq_true_iff.mp hstops).1
    · exact logMoved_openLog hl hphase
  · rename_i guard hphase
    split
    · rename_i hstops
      refine logMoved_setLogPhase hl rfl rfl ?_ nofun
      rw [hphase]
      exact LogStep.stop _ _ _ (Bool.and_eq_true_iff.mp hstops).1
    · rename_i hgoes
      refine logMoved_readLog hl hphase ?_
      intro hnothing
      -- A stopped session goes on with its stream only if there is something to read.
      have hsilent : l.source.isReady = false := by
        unfold Session.Source.isReady
        rw [hnothing]
      simpa [hsilent] using hgoes
  · rename_i guard last hphase
    exact logMoved_releaseLog hl (Or.inr ⟨last, hphase⟩)
  · rename_i guard hphase
    exact logMoved_releaseLog hl (Or.inl hphase)
  · rename_i hphase
    exact logMoved_nothing hl (Or.inl hphase)

/-! ### Moves of the world -/

def Log.gets (bytes : List UInt8) (l : Log) : Log :=
  { l with source := l.source.write bytes }

theorem logs_wrote {a : Agent σ} {n : Nat} {l : Log} (hl : a.logs[n]? = some l)
    (bytes : List UInt8) (t : Task) (m : Nat) :
    ((a.modifyLog n (Log.gets bytes)).wake t).logs[m]? =
      if n = m then some (l.gets bytes) else a.logs[m]? := by
  simp only [wake, modifyLog]
  rw [List.getElem?_modify]
  by_cases hm : n = m
  · subst hm
    simp [hl]
  · simp [hm]

theorem logs_own {a : Agent σ} {n : Nat} {l l' : Log} {p : Progress σ}
    (hmoved : LogMoved a n l p) (hl' : p.agent.logs[n]? = some l') (t : Task) (m : Nat) :
    (p.after t).logs[m]? = if n = m then some l' else a.logs[m]? := by
  rw [logs_after]
  by_cases hm : n = m
  · subst hm
    rw [hl', if_pos rfl]
  · rw [if_neg hm]
    exact hmoved.others m (Ne.symm hm)

/-- What becomes of the log sessions between two worlds. -/
inductive LogChanges (w w' : World σ) : Prop where
  | beside (agent : LogBeside w.agent w'.agent)
      (deeds : ∀ n, w'.deedsOf (.log n) = w.deedsOf (.log n))
      (written : ∀ n, w'.writtenTo (.log n) = w.writtenTo (.log n))
  /-- The remote side of a session writes. -/
  | wrote (n : Nat) (l : Log) (bytes : List UInt8) (was : w.agent.logs[n]? = some l)
      (live : l.phase.isLive = true)
      (agent : w'.agent = (w.agent.modifyLog n (Log.gets bytes)).wake (.log n))
      (deeds : ∀ m, w'.deedsOf (.log m) = w.deedsOf (.log m))
      (written : ∀ m, w'.writtenTo (.log m) = w.writtenTo (.log m) ++ if n = m then bytes else [])
  | own (n : Nat) (l : Log) (p : Progress σ) (was : w.agent.logs[n]? = some l)
      (moved : LogMoved (w.agent.withoutTask (.log n)) n l p)
      (agent : w'.agent = p.after (.log n))
      (deeds : ∀ m, w'.deedsOf (.log m) = w.deedsOf (.log m) ++ if n = m then p.deeds else [])
      (written : ∀ m, w'.writtenTo (.log m) = w.writtenTo (.log m))

theorem logChanges_withAgent (w : World σ) {a : Agent σ} (h : LogBeside w.agent a) :
    LogChanges w (w.withAgent a) :=
  .beside h (fun _ => rfl) (fun _ => rfl)

theorem logChanges_refl (w : World σ) : LogChanges w w :=
  .beside (LogBeside.refl _) (fun _ => rfl) (fun _ => rfl)

theorem logChanges_runTask {registry : Registry Handler} {w : World σ} (h : Serving registry w)
    (t : Task) (prefersStream : Bool) : LogChanges w (w.runTask t prefersStream) := by
  by_cases ht : t ∈ w.agent.ready
  · obtain ⟨hagent, -, -⟩ := w.runTask_ready ht prefersStream
    have hdeeds := w.deedsOf_runTask ht prefersStream
    have hwritten : ∀ n, (w.runTask t prefersStream).writtenTo (.log n) = w.writtenTo (.log n) := by
      intro n
      unfold World.runTask
      rw [if_pos ht]
      rfl
    by_cases hlog : ∃ n, t = .log n
    · obtain ⟨n, rfl⟩ := hlog
      cases hl : w.agent.logs[n]? with
      | some l =>
        refine .own n l _ hl (logMoved_stepLog (a := w.agent.withoutTask (.log n)) hl prefersStream)
          hagent ?_ hwritten
        intro m
        rw [hdeeds]
        simp [stepOf, step]
      | none =>
        have hnothing : w.agent.stepOf prefersStream (.log n) =
            (w.agent.withoutTask (.log n)).rests [] := by
          simp [stepOf, step, stepLog, hl]
        rw [hnothing] at hagent hdeeds
        refine .beside ?_ ?_ hwritten
        · rw [hagent]
          refine ⟨rfl, ?_, ?_, ?_⟩
          · intro m l hm
            refine ⟨l, hm, Touched.refl l, Or.imp_right fun hready => ?_⟩
            have hne : Task.log m ≠ .log n := by
              intro heq
              cases heq
              cases hl.symm.trans hm
            exact (List.mem_erase_of_ne hne).mpr hready
          · intro m hm l hm'
            cases hm.symm.trans hm'
          · intro m l l' hm hm' hbefore hafter
            cases hm.symm.trans hm'
            cases hbefore.symm.trans hafter
        · intro m
          rw [hdeeds]
          simp [rests]
    · have hne : ∀ n, t ≠ .log n := fun n h => hlog ⟨n, h⟩
      have heffect := effect_stepOf t prefersStream fun n s hs => (h.stands n s hs).awaited
      refine .beside ?_ ?_ hwritten
      · rw [hagent]
        exact logBeside_runTask hne heffect.keeps
      · intro n
        rw [hdeeds, if_neg (hne n), List.append_nil]
  · rw [w.runTask_of_not_mem ht]
    exact logChanges_refl w

theorem logChanges_logWrite (w : World σ) (stream : Nat) (bytes : List UInt8) :
    LogChanges w (w.logWrite stream bytes) := by
  have hquiet : ∀ couldWrite, w.agent.logWrite stream bytes = (couldWrite, w.agent) →
      (couldWrite = true → bytes = []) → LogChanges w (w.logWrite stream bytes) := by
    intro couldWrite hwrite hnothing
    unfold World.logWrite
    rw [hwrite]
    refine .beside ?_ ?_ ?_
    · rw [agent_noteWritten]
      exact LogBeside.refl _
    · intro n
      rw [deedsOf_noteWritten]
      rfl
    · intro n
      rw [writtenTo_noteWritten]
      have hnone : (if (w.agent.openedLogs[stream]?.map Task.log = some (.log n)) ∧
          couldWrite = true then bytes else []) = [] := by
        split
        · rename_i h
          exact hnothing h.2
        · rfl
      rw [hnone, List.append_nil]
      rfl
  cases hopened : w.agent.openedLog? stream with
  | none => exact hquiet false (by simp [logWrite, hopened]) nofun
  | some opened =>
    obtain ⟨k, l⟩ := opened
    by_cases hended : l.source.ending.isSome = true
    · exact hquiet false (by simp [logWrite, hopened, hended]) nofun
    by_cases hbytes : bytes = []
    · exact hquiet true (by simp [logWrite, hopened, hended, hbytes]) fun _ => hbytes
    cases hlive : l.phase.isLive with
    | false => exact hquiet false (by simp [logWrite, hopened, hended, hbytes, hlive]) nofun
    | true =>
      have hwrite : w.agent.logWrite stream bytes =
          (true, w.agent.onSource stream (·.write bytes)) := by
        simp [logWrite, hopened, hended, hbytes, hlive]
      unfold openedLog? at hopened
      simp only [Option.bind_eq_bind, Option.bind_eq_some_iff, Option.some.injEq,
        Prod.mk.injEq] at hopened
      obtain ⟨n, hn, l', hl, hk, rfl⟩ := hopened
      unfold World.logWrite
      rw [hwrite]
      refine .wrote n l' bytes hl hlive ?_ ?_ ?_
      · rw [agent_noteWritten]
        show w.agent.onSource stream (·.write bytes) = _
        unfold onSource
        rw [hn]
        rfl
      · intro m
        rw [deedsOf_noteWritten]
        rfl
      · intro m
        rw [writtenTo_noteWritten, hn]
        simp [World.writtenTo, World.withAgent]

theorem logChanges_step {registry : Registry Handler} {w : World σ} (h : Serving registry w)
    (m : Move σ) : LogChanges w (w.step m) := by
  -- Whatever leaves the log sessions as they are forgets none of them.
  have hquiet : ∀ {a : Agent σ}, Undisturbed w.agent a → a.logTable = w.agent.logTable →
      a.logs = w.agent.logs → LogChanges w (w.withAgent a) := by
    intro a ha htable hlogs
    exact logChanges_withAgent w (.of_eq (fun n hn => ha.keeps.ready _ hn) htable hlogs)
  cases m with
  | run t prefersStream => exact logChanges_runTask h t prefersStream
  | frame bytes =>
    simp only [World.step, World.hear]
    split
    · exact logChanges_refl w
    · exact .beside (LogBeside.refl _) (fun _ => rfl) (fun _ => rfl)
  | take =>
    simp only [World.step, World.take]
    split
    · exact logChanges_refl w
    · rename_i r rest _
      split
      · rename_i intake hoffer
        unfold Intake.offer at hoffer
        split at hoffer
        · cases hoffer
          refine .beside (.of_eq ?_ rfl rfl) (fun _ => rfl) (fun _ => rfl)
          intro n hn
          exact (keeps_receive _ r).ready _ hn
        · cases hoffer
      · exact logChanges_refl w
  | stop => exact .beside (LogBeside.refl _) (fun _ => rfl) (fun _ => rfl)
  | tick =>
    simp only [World.step, World.tick]
    split
    · exact logChanges_refl w
    · rename_i hadvance
      have hsame := undisturbed_advance hadvance
      unfold advance? at hadvance
      split at hadvance
      · cases hadvance
      · obtain rfl := Option.some.inj hadvance
        exact hquiet hsame rfl rfl
  | depart =>
    simp only [World.step, World.depart]
    split
    · exact logChanges_refl w
    · exact .beside (.of_eq (fun _ h => h) rfl rfl) (fun _ => rfl) (fun _ => rfl)
  | collect => exact hquiet (undisturbed_collectAll w.agent) rfl rfl
  | shellWrite stream bytes =>
    simp only [World.step, World.shellWrite]
    refine .beside ?_ ?_ ?_
    · rw [agent_noteWritten]
      exact logBeside_shellWrite w.agent stream bytes
    · intro n
      rw [deedsOf_noteWritten]
      rfl
    · intro n
      rw [writtenTo_noteWritten]
      simp [World.writtenTo, World.withAgent]
  | shellRead stream count => exact logChanges_withAgent w (logBeside_onTerminal _ _ _)
  | shellFail stream text => exact logChanges_withAgent w (logBeside_onTerminal _ _ _)
  | shellCloseOutput stream => exact logChanges_withAgent w (logBeside_onTerminal _ _ _)
  | shellCloseInput stream => exact logChanges_withAgent w (logBeside_onTerminal _ _ _)
  | shellCloseSizes stream => exact logChanges_withAgent w (logBeside_onTerminal _ _ _)
  | logWrite stream bytes => exact logChanges_logWrite w stream bytes
  | logFail stream text => exact logChanges_withAgent w (logBeside_onSource _ _ _ fun _ => rfl)
  | logEnd stream => exact logChanges_withAgent w (logBeside_onSource _ _ _ fun _ => rfl)
  | change kind change object =>
    apply logChanges_withAgent
    unfold onChange
    split
    · exact LogBeside.refl _
    · exact .of_eq (fun _ h => h) rfl rfl
  | cluster change => exact logChanges_withAgent w (.of_eq (fun _ h => h) rfl rfl)

end ClusterAgent.Agent
