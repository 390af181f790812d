/-
  ClusterAgent/Proofs/Agent/LogLifecycle.lean
  ===========================================
  **The life of a log session, from its open to its end.**

  The story of a session, what it has read and what is left to read are kept by every
  move of the world (`LogsKnown`), whoever makes it.  Together with the table, which
  lists the sessions between their claim and their release, this is all there is to a
  log session: `log_lifecycle` reads it off for every run, with what a second open
  under the same identifier and the closing of an unknown one come to.
-/
import ClusterAgent.Handler.Sessions
import ClusterAgent.Proofs.Agent.LogStory
import ClusterAgent.Proofs.Agent.Opening

namespace ClusterAgent.Agent

open Handler (Outcome Program)

variable {σ : Type} {registry : Registry Handler}

/-! ### What is known of a session -/

/-- What is known of the log session `n`, when it is `l`. -/
structure LogKnown (w : World σ) (n : Nat) (l : Log) : Prop where
  story : LogStory l.id l.stopped l.phase (w.deedsOf (.log n))
  bytes : (reads (w.deedsOf (.log n))).flatten ++ l.unread = w.writtenTo (.log n)
  drained : ∀ ending, .finish ending ∈ w.deedsOf (.log n) → l.unread = []

/-- What is known of all log sessions, and that nothing is told of those that there are not. -/
structure LogsKnown (w : World σ) : Prop where
  known : ∀ (n : Nat) (l : Log), w.agent.logs[n]? = some l → LogKnown w n l
  unborn : ∀ n : Nat, w.agent.logs[n]? = none →
    w.deedsOf (.log n) = [] ∧ w.writtenTo (.log n) = []

theorem logKnown_touched {w w' : World σ} {n : Nat} {l l' : Log} (h : LogKnown w n l)
    (htouched : Touched l l') (hdeeds : w'.deedsOf (.log n) = w.deedsOf (.log n))
    (hwritten : w'.writtenTo (.log n) = w.writtenTo (.log n)) : LogKnown w' n l' where
  story := by
    rw [htouched.id, htouched.phase, hdeeds]
    exact logStory_stopped h.story htouched.stopped
  bytes := by
    rw [htouched.unread, hdeeds, hwritten]
    exact h.bytes
  drained := by
    rw [htouched.unread, hdeeds]
    exact h.drained

section Step

variable {n : Nat} {id : String} {isStopped : Bool} {table table' : SessionTable Nat}
  {phase phase' : Phase} {unread unread' : List UInt8} {done deeds : List Deed}

/-- What was unread was read or is unread still. -/
theorem logReads_step
    (hstep : LogStep n id isStopped table phase unread deeds table' phase' unread') :
    (reads deeds).flatten ++ unread' = unread := by
  cases hstep with
  | read guard bytes _ hbytes => simp [reads, Deed.read?]
  | stay | refuse | claim | abandon | miss | dial | stop | finish | broke | release =>
    simp [reads, Deed.read?]

theorem finish_not_mem_following (id : String) (guard : Guard) (chunks : List (List UInt8))
    (ending : Session.Ending) : .finish ending ∉ following id guard chunks := by
  simp [following]

/-- Whoever has seen the end of its stream, good or bad, has read everything. -/
theorem logDrained_step
    (hstep : LogStep n id isStopped table phase unread deeds table' phase' unread')
    (hstory : LogStory id isStopped phase done)
    (hdrained : ∀ ending, .finish ending ∈ done → unread = []) (ending : Session.Ending)
    (hmem : .finish ending ∈ done ++ deeds) : unread' = [] := by
  cases hstep with
  | read guard bytes _ hbytes =>
    obtain ⟨chunks, -, rfl⟩ := hstory
    simp [finish_not_mem_following] at hmem
  | finish | broke => rfl
  | stay | refuse | claim | abandon | miss | dial | stop | release =>
    exact hdrained ending (by simpa using hmem)

end Step

/-! ### What every move keeps -/

theorem logsKnown_beside {w w' : World σ} (h : LogsKnown w) (hagent : LogBeside w.agent w'.agent)
    (hdeeds : ∀ n, w'.deedsOf (.log n) = w.deedsOf (.log n))
    (hwritten : ∀ n, w'.writtenTo (.log n) = w.writtenTo (.log n)) : LogsKnown w' where
  known n l' hl' := by
    cases hl : w.agent.logs[n]? with
    | some l =>
      obtain ⟨t, ht, htouched, -⟩ := hagent.old n l hl
      cases hl'.symm.trans ht
      exact logKnown_touched (h.known n l hl) htouched (hdeeds n) (hwritten n)
    | none =>
      obtain ⟨hphase, -, hunread, -⟩ := hagent.new n hl l' hl'
      obtain ⟨hnothing, hnobody⟩ := h.unborn n hl
      constructor
      · rw [hphase, hdeeds, hnothing]
        rfl
      · rw [hdeeds, hwritten, hnothing, hnobody, hunread]
        rfl
      · exact fun _ _ => hunread
  unborn n hnone := by
    rw [hdeeds, hwritten]
    cases hl : w.agent.logs[n]? with
    | none => exact h.unborn n hl
    | some l =>
      obtain ⟨l', hl', -⟩ := hagent.old n l hl
      cases hnone.symm.trans hl'

/-- Something happens to one session, and what is known of it is kept. -/
theorem logsKnown_at {w w' : World σ} (h : LogsKnown w) {n : Nat} {l' : Log}
    (hlogs : ∀ m : Nat, w'.agent.logs[m]? = if n = m then some l' else w.agent.logs[m]?)
    (hknown : LogKnown w' n l')
    (hothers : ∀ m, m ≠ n → w'.deedsOf (.log m) = w.deedsOf (.log m) ∧
      w'.writtenTo (.log m) = w.writtenTo (.log m)) : LogsKnown w' where
  known m t ht := by
    rw [hlogs] at ht
    split at ht
    · rename_i hm
      subst hm
      cases ht
      exact hknown
    · rename_i hm
      obtain ⟨hdeeds, hwritten⟩ := hothers m (Ne.symm hm)
      exact logKnown_touched (h.known m t ht) (Touched.refl t) hdeeds hwritten
  unborn m hnone := by
    rw [hlogs] at hnone
    split at hnone
    · cases hnone
    · rename_i hm
      obtain ⟨hdeeds, hwritten⟩ := hothers m (Ne.symm hm)
      rw [hdeeds, hwritten]
      exact h.unborn m hnone

/-- The remote side of a session writes. -/
theorem logsKnown_wrote {w w' : World σ} (h : LogsKnown w) {n : Nat} {l : Log}
    {bytes : List UInt8} (hl : w.agent.logs[n]? = some l) (hlive : l.phase.isLive = true)
    (hagent : w'.agent = (w.agent.modifyLog n (Log.gets bytes)).wake (.log n))
    (hdeeds : ∀ m, w'.deedsOf (.log m) = w.deedsOf (.log m))
    (hwritten : ∀ m, w'.writtenTo (.log m) =
      w.writtenTo (.log m) ++ if n = m then bytes else []) : LogsKnown w' := by
  have hknown := h.known n l hl
  have hlogs : ∀ m : Nat, w'.agent.logs[m]? =
      if n = m then some (l.gets bytes) else w.agent.logs[m]? := by
    rw [hagent]
    exact logs_wrote hl bytes _
  refine logsKnown_at h hlogs ?_ ?_
  · have hunread : (l.gets bytes).unread = l.unread ++ bytes := by
      simp [Log.unread, Log.gets, Session.Source.write]
    constructor
    · rw [hdeeds]
      exact hknown.story
    · rw [hdeeds, hwritten, if_pos rfl, hunread, ← List.append_assoc, hknown.bytes]
    · intro ending hmem
      rw [hdeeds] at hmem
      -- The session has a stream, so its bridge has not seen the end of it.
      have hstory := hknown.story
      cases hphase : l.phase with
      | live guard =>
        rw [hphase] at hstory
        obtain ⟨chunks, -, hdone⟩ := hstory
        rw [hdone] at hmem
        exact absurd hmem (finish_not_mem_following _ _ _ _)
      | starting | opening _ | closing _ _ | closed _ | gone =>
        rw [hphase] at hlive
        cases hlive
  · intro m hm
    refine ⟨hdeeds m, ?_⟩
    rw [hwritten, if_neg (Ne.symm hm), List.append_nil]

/-- The bridge of a session takes a step. -/
theorem logsKnown_own {w w' : World σ} (h : LogsKnown w) {n : Nat} {l : Log} {p : Progress σ}
    (hl : w.agent.logs[n]? = some l) (hmoved : LogMoved (w.agent.withoutTask (.log n)) n l p)
    (hagent : w'.agent = p.after (.log n))
    (hdeeds : ∀ m, w'.deedsOf (.log m) = w.deedsOf (.log m) ++ if n = m then p.deeds else [])
    (hwritten : ∀ m, w'.writtenTo (.log m) = w.writtenTo (.log m)) : LogsKnown w' := by
  have hknown := h.known n l hl
  obtain ⟨l', hl', hid, hstopped, hstep, -⟩ := hmoved.own
  have hlogs : ∀ m : Nat, w'.agent.logs[m]? = if n = m then some l' else w.agent.logs[m]? := by
    rw [hagent]
    exact logs_own hmoved hl' _
  have hown : w'.deedsOf (.log n) = w.deedsOf (.log n) ++ p.deeds := by
    rw [hdeeds, if_pos rfl]
  refine logsKnown_at h hlogs ?_ ?_
  · constructor
    · rw [hown, hid, hstopped]
      exact logStory_step hstep hknown.story
    · rw [hown, hwritten, reads_append, List.flatten_append, List.append_assoc,
        logReads_step hstep]
      exact hknown.bytes
    · intro ending hmem
      rw [hown] at hmem
      exact logDrained_step hstep hknown.story hknown.drained ending hmem
  · intro m hm
    refine ⟨?_, hwritten m⟩
    rw [hdeeds, if_neg (Ne.symm hm), List.append_nil]

theorem logsKnown_changes {w w' : World σ} (h : LogsKnown w) (hchanges : LogChanges w w') :
    LogsKnown w' := by
  cases hchanges with
  | beside agent deeds written => exact logsKnown_beside h agent deeds written
  | wrote n l bytes was live agent deeds written =>
    exact logsKnown_wrote h was live agent deeds written
  | own n l p was moved agent deeds written => exact logsKnown_own h was moved agent deeds written

theorem logsKnown_start (client : Cluster.Client σ) (cluster : σ) (capacity tail : Nat) :
    LogsKnown (World.start registry client cluster capacity tail) where
  known n l hl := by cases hl
  unborn _ _ := ⟨rfl, rfl⟩

theorem logsKnown_run (client : Cluster.Client σ) (cluster : σ) (capacity tail : Nat)
    (moves : List (Move σ)) :
    let w := (World.start registry client cluster capacity tail).run moves
    Tended registry w ∧ LogsKnown w := by
  refine World.run_induction (P := fun w => Tended registry w ∧ LogsKnown w) ?_ ?_ moves
  · exact ⟨tended_run client cluster capacity tail [], logsKnown_start client cluster capacity tail⟩
  · rintro w m ⟨htended, hknown⟩
    exact ⟨htended.step m, logsKnown_changes hknown (logChanges_step htended.serving m)⟩

/-! ### Identifiers -/

/-- The bridge `n` has claimed this identifier and not given it up. -/
def World.HoldsLog (w : World σ) (n : Nat) (id : String) : Prop :=
  ∃ l guard, w.agent.logs[n]? = some l ∧ l.id = id ∧
    .claim guard ∈ w.deedsOf (.log n) ∧ .release guard ∉ w.deedsOf (.log n)

theorem holdsLog_iff {w : World σ} (h : LogsKnown w) (n : Nat) (id : String) :
    w.HoldsLog n id ↔ ∃ guard, w.agent.logHolder? n = some (id, guard) := by
  unfold World.HoldsLog logHolder?
  constructor
  · rintro ⟨l, guard, hl, rfl, hclaim, hrelease⟩
    refine ⟨guard, ?_⟩
    have hguard := (guard?_of_logStory (h.known n l hl).story guard).mpr ⟨hclaim, hrelease⟩
    simp [hl, hguard]
  · rintro ⟨guard, hholder⟩
    simp only [Option.bind_eq_some_iff, Option.map_eq_some_iff, Prod.mk.injEq] at hholder
    obtain ⟨l, hl, own, hguard, rfl, rfl⟩ := hholder
    obtain ⟨hclaim, hrelease⟩ := (guard?_of_logStory (h.known n l hl).story own).mp hguard
    exact ⟨l, own, hl, rfl, hclaim, hrelease⟩

theorem isLogOpen_iff {w : World σ} (hlogs : LogOrderly w) (h : LogsKnown w) (id : String) :
    w.agent.isLogOpen id = true ↔ ∃ n, w.HoldsLog n id := by
  unfold isLogOpen
  rw [hlogs.seats.contains_iff]
  simp only [holdsLog_iff h]

theorem holdsLog_single {w : World σ} (hlogs : LogOrderly w) (h : LogsKnown w) {n m : Nat}
    {id : String} (hn : w.HoldsLog n id) (hm : w.HoldsLog m id) : n = m := by
  obtain ⟨guard, hn⟩ := (holdsLog_iff h n id).mp hn
  obtain ⟨guard', hm⟩ := (holdsLog_iff h m id).mp hm
  exact hlogs.seats.single hn hm

/-! ### Single steps -/

/-- An open whose identifier is taken says so and touches nobody else. -/
theorem log_open_of_taken {w : World σ} {n : Nat} {l : Log} (hl : w.agent.logs[n]? = some l)
    (hphase : l.phase = .starting) (htaken : w.agent.isLogOpen l.id = true)
    (hready : Task.log n ∈ w.agent.ready) (prefersStream : Bool) :
    let w' := w.step (.run (.log n) prefersStream)
    w'.journal = w.journal ++ [(.log n, .queue (Envelope.log l.id (refusal l.id)))] ∧
      w'.agent.logTable = w.agent.logTable ∧
      w'.agent.logs[n]? = some { l with phase := .gone } ∧
      ∀ m, m ≠ n → w'.agent.logs[m]? = w.agent.logs[m]? := by
  obtain ⟨hagent, hjournal, -⟩ := w.runTask_ready hready prefersStream
  have hregister : w.agent.logTable.register l.id n = .error ⟨l.id⟩ := by
    unfold isLogOpen at htaken
    simp [SessionTable.register, htaken]
  have hstep : w.agent.stepOf prefersStream (.log n) =
      ((withoutTask w.agent (.log n)).setLogPhase n .gone).rests
        [.queue (Envelope.log l.id (refusal l.id))] := by
    simp [stepOf, step, stepLog, hl, hphase, claimLog, hregister, refusal]
  show (w.runTask (.log n) prefersStream).journal = _ ∧
    (w.runTask (.log n) prefersStream).agent.logTable = _ ∧
    (w.runTask (.log n) prefersStream).agent.logs[n]? = _ ∧
    ∀ m, m ≠ n → (w.runTask (.log n) prefersStream).agent.logs[m]? = _
  rw [hagent, hjournal, hstep, logs_after, logTable_after]
  refine ⟨rfl, rfl, ?_, ?_⟩
  · simp [rests, setLogPhase, modifyLog, hl]
  · intro m hm
    simp [rests, setLogPhase, modifyLog, Ne.symm hm]

/-- A bridge that has come to its end gives its identifier up, which is free then. -/
theorem log_released {w : World σ} (htended : Tended registry w) {n : Nat} {l : Log} {guard : Guard}
    (hl : w.agent.logs[n]? = some l) (hphase : l.phase = .closed guard)
    (hready : Task.log n ∈ w.agent.ready) (prefersStream : Bool) :
    let w' := w.step (.run (.log n) prefersStream)
    w'.journal = w.journal ++ [(.log n, .release guard)] ∧
      w'.agent.logs[n]? = some { l with phase := .gone } ∧ w'.agent.isLogOpen l.id = false := by
  obtain ⟨hagent, hjournal, -⟩ := w.runTask_ready hready prefersStream
  have hstep : w.agent.stepOf prefersStream (.log n) =
      (withoutTask w.agent (.log n)).releaseLog n guard := by
    simp [stepOf, step, stepLog, hl, hphase]
  have hagent' : (w.runTask (.log n) prefersStream).agent.logs[n]? =
      some { l with phase := .gone } := by
    rw [hagent, hstep, logs_after]
    simp [releaseLog, rests, setLogPhase, modifyLog, hl]
  refine ⟨?_, hagent', ?_⟩
  · show (w.runTask (.log n) prefersStream).journal = _
    rw [hjournal, hstep]
    rfl
  · -- Nobody else held the identifier before, and the step gives it to nobody.
    have hseats := (htended.step (.run (.log n) prefersStream)).logs.seats
    rw [Bool.eq_false_iff]
    intro hopen
    obtain ⟨m, other, hholder⟩ := (hseats.contains_iff l.id).mp hopen
    have hm : m ≠ n := by
      rintro rfl
      simp [logHolder?, World.step, hagent', Phase.guard?] at hholder
    have hbefore : w.agent.logHolder? m = some (l.id, other) := by
      rw [← hholder]
      show _ = (w.runTask (.log n) prefersStream).agent.logHolder? m
      rw [hagent, hstep]
      simp [logHolder?, logs_after, releaseLog, rests, setLogPhase, modifyLog, Ne.symm hm]
    have hown : w.agent.logHolder? n = some (l.id, guard) := by
      simp [logHolder?, hl, hphase, Phase.guard?]
    exact hm (htended.logs.seats.single hbefore hown)

/-! ### Closing -/

/-- The table names the session that holds an identifier. -/
theorem get?_log_iff {w : World σ} (hlogs : LogOrderly w) (h : LogsKnown w) (id : String)
    (n : Nat) : w.agent.logTable.get? id = some n ↔ w.HoldsLog n id := by
  rw [holdsLog_iff h]
  exact get?_iff_seat hlogs.seats id n

/-- A handler looks a session up and stops it; where there is none, nothing happens. -/
theorem close_step {w : World σ} {k : Nat} {s : Served} {params : Json}
    (hs : w.agent.requests[k]? = some s) (hstage : s.stage = .running (Handler.closeLog params))
    (hready : Task.handler k ∈ w.agent.ready) (prefersStream : Bool) :
    let id := (Handler.CloseLogParams.schema.decodeLenient params).sessionId
    let w' := w.step (.run (.handler k) prefersStream)
    w'.journal = w.journal ∧
      w'.agent = { w.agent with
        logs := w'.agent.logs, requests := w'.agent.requests, ready := w'.agent.ready } ∧
      w'.agent.logs = match w.agent.logTable.get? id with
        | some n => w.agent.logs.modify n fun l => { l with stopped := true }
        | none => w.agent.logs := by
  intro id w'
  have hagent : w'.agent = ((withoutTask w.agent (.handler k)).ask k
      (.ask (.cancelLog id) fun _ => .done Response.ok)).after (.handler k) :=
    agent_ask hs hstage hready prefersStream
  have hdeeds : (w.agent.stepOf prefersStream (.handler k)).deeds = [] := deeds_stepHandler _ k
  refine ⟨?_, ?_, ?_⟩
  · show (w.runTask (.handler k) prefersStream).journal = _
    rw [(w.runTask_ready hready prefersStream).2.1, hdeeds]
    simp
  · rw [hagent]
    cases hfound : w.agent.logTable.get? id <;>
      simp [ask, hfound, continueWith, goes, setStage, Progress.after, stopLog, modifyLog, wake,
        Outbound.sendAll]
  · rw [hagent, logs_after]
    cases hfound : w.agent.logTable.get? id <;>
      simp [ask, hfound, continueWith, goes, setStage, stopLog, modifyLog, wake]

/-- All that the closing of the log session with this identifier does: whoever holds the identifier
    is told to stop. -/
structure Closes (id : String) (w w' : World σ) : Prop where
  journal : w'.journal = w.journal
  agent : w'.agent = { w.agent with
    logs := w'.agent.logs, requests := w'.agent.requests, ready := w'.agent.ready }
  holder : ∀ (n : Nat) (l : Log), w.HoldsLog n id → w.agent.logs[n]? = some l →
    w'.agent.logs[n]? = some { l with stopped := true }
  others : ∀ n : Nat, ¬ w.HoldsLog n id → w'.agent.logs[n]? = w.agent.logs[n]?
  unknown : w.agent.isLogOpen id = false → w'.agent.logs = w.agent.logs

theorem closes_step {w : World σ} (hlogs : LogOrderly w) (h : LogsKnown w) {k : Nat}
    {s : Served} {params : Json} (hs : w.agent.requests[k]? = some s)
    (hstage : s.stage = .running (Handler.closeLog params))
    (hready : Task.handler k ∈ w.agent.ready) (prefersStream : Bool) :
    Closes (Handler.CloseLogParams.schema.decodeLenient params).sessionId w
      (w.step (.run (.handler k) prefersStream)) := by
  obtain ⟨hjournal, hagent, hnow⟩ := close_step hs hstage hready prefersStream
  generalize (Handler.CloseLogParams.schema.decodeLenient params).sessionId = id at hnow ⊢
  constructor
  case journal => exact hjournal
  case agent => exact hagent
  case holder =>
    intro n l hholds hl
    rw [(get?_log_iff hlogs h id n).mpr hholds] at hnow
    rw [hnow]
    simp [hl]
  case others =>
    intro n hfree
    rw [hnow]
    cases hfound : w.agent.logTable.get? id with
    | none => rfl
    | some m =>
      have hm : m ≠ n := by
        rintro rfl
        exact hfree ((get?_log_iff hlogs h id m).mp hfound)
      simp [hm]
  case unknown =>
    intro hunknown
    rw [hnow]
    cases hfound : w.agent.logTable.get? id with
    | none => rfl
    | some n =>
      have hopen := (isLogOpen_iff hlogs h id).mpr ⟨n, (get?_log_iff hlogs h id n).mp hfound⟩
      rw [hunknown] at hopen
      cases hopen

/-- Whoever closes a log session is answered with success. -/
theorem closed_with_success (params : Json) :
    ProgramEnds (· = Response.ok) (Handler.closeLog params) :=
  fun _ => rfl

theorem Serving.answer_of_close {w : World σ} (h : Serving registry w) {k : Nat} {s : Served}
    {answer : Response} (hs : w.agent.requests[k]? = some s)
    (hlookup : registry.lookup s.request.resource s.request.action = some Handler.closeLog)
    (hanswered : s.stage = .answered answer) : answer = Response.ok := by
  have hsound := (h.stands k s hs).sound
  rw [hlookup, hanswered] at hsound
  obtain ⟨o, hcomes, rfl⟩ := hsound
  exact (closed_with_success _).response hcomes

/-! ### The life of a session -/

/-- The life of every log session of a world, and of every identifier. -/
structure LogLifecycle (registry : Registry Handler) (w : World σ) : Prop where
  /-- A bridge claims its identifier, dials, passes on what it reads until it is stopped or its
      stream ends or fails, and gives the identifier up; or the identifier is taken and it only
      says so. -/
  story : ∀ (n : Nat) (l : Log), w.agent.logs[n]? = some l →
    LogStory l.id l.stopped l.phase (w.deedsOf (.log n))
  /-- Once it has claimed its identifier, its envelopes are one for every piece that it read, none
      of them empty, and then one for its failure, if it has met one; they carry just these
      bytes. -/
  envelopes : ∀ (n : Nat) (l : Log) (guard : Guard), w.agent.logs[n]? = some l →
    .claim guard ∈ w.deedsOf (.log n) →
    let deeds := w.deedsOf (.log n)
    let chunks := reads deeds ++ (deeds.findSome? Deed.failure?).toList
    (∀ chunk ∈ reads deeds, chunk ≠ []) ∧ envelopes deeds = chunks.map (Envelope.log l.id) ∧
      (envelopes deeds).map Envelope.chunkBytes? = chunks.map some
  /-- What it has read is what its remote side has written, as far as it has come; if it has seen
      the end of the stream, it has read all of it. -/
  written : ∀ (n : Nat) (l : Log), w.agent.logs[n]? = some l →
    (reads (w.deedsOf (.log n))).flatten ++ l.unread = w.writtenTo (.log n) ∧
    ∀ ending, .finish ending ∈ w.deedsOf (.log n) → l.unread = []
  /-- It does not dial before it has claimed its identifier. -/
  claimed : ∀ n, Registered (w.deedsOf (.log n))
  /-- It gives the identifier up once, with its last deed, however it has ended. -/
  released : ∀ (n : Nat) (l : Log) (guard : Guard), w.agent.logs[n]? = some l →
    .claim guard ∈ w.deedsOf (.log n) → l.phase = .gone →
    ∃ before, LogEnds l.id guard l.stopped before ∧
      w.deedsOf (.log n) = before ++ [.release guard] ∧ ∀ other, .release other ∉ before
  /-- When it has come to its end it can do so, and then the identifier is free. -/
  ends : ∀ (n : Nat) (l : Log) (guard : Guard), w.agent.logs[n]? = some l →
    l.phase = .closed guard → Task.log n ∈ w.agent.ready ∧ ∀ prefersStream,
    let w' := w.step (.run (.log n) prefersStream)
    w'.journal = w.journal ++ [(.log n, .release guard)] ∧
      w'.agent.logs[n]? = some { l with phase := .gone } ∧ w'.agent.isLogOpen l.id = false
  /-- An identifier is registered as long as a bridge holds it, -/
  registered : ∀ id, w.agent.isLogOpen id = true ↔ ∃ n, w.HoldsLog n id
  /-- and never do two bridges hold the same one. -/
  single : ∀ n m id, w.HoldsLog n id → w.HoldsLog m id → n = m
  /-- No bridge is left behind: its task is ready unless it is over or has nothing to do. -/
  attended : ∀ (n : Nat) (l : Log), w.agent.logs[n]? = some l →
    l.Rests ∨ Task.log n ∈ w.agent.ready
  /-- An open whose identifier is registered queues one envelope and touches nobody else. -/
  taken : ∀ (n : Nat) (l : Log), w.agent.logs[n]? = some l → l.phase = .starting →
    w.agent.isLogOpen l.id = true → Task.log n ∈ w.agent.ready ∧ ∀ prefersStream,
    let w' := w.step (.run (.log n) prefersStream)
    w'.journal = w.journal ++ [(.log n, .queue (Envelope.log l.id
        ("session " ++ l.id ++ " already exists").toUTF8.toList))] ∧
      w'.agent.logTable = w.agent.logTable ∧
      w'.agent.logs[n]? = some { l with phase := .gone } ∧
      ∀ m, m ≠ n → w'.agent.logs[m]? = w.agent.logs[m]?
  /-- Closing stops the session that holds the identifier; if nobody does, it changes nothing. -/
  closing : ∀ (k : Nat) (s : Served) (params : Json), w.agent.requests[k]? = some s →
    s.stage = .running (Handler.closeLog params) → Task.handler k ∈ w.agent.ready →
    ∀ prefersStream, Closes (Handler.CloseLogParams.schema.decodeLenient params).sessionId w
      (w.step (.run (.handler k) prefersStream))
  /-- Closing is answered with success, whether there was a session or not. -/
  answered : ∀ (k : Nat) (s : Served) (answer : Response), w.agent.requests[k]? = some s →
    registry.lookup s.request.resource s.request.action = some Handler.closeLog →
    s.stage = .answered answer → answer = Response.ok

/-- **Every log session lives like this**, whatever it is sent, whatever fails, whenever it is
    closed, and whoever else is at work. -/
theorem log_lifecycle (registry : Registry Handler) (client : Cluster.Client σ) (cluster : σ)
    (capacity tail : Nat) (moves : List (Move σ)) :
    LogLifecycle registry ((World.start registry client cluster capacity tail).run moves) := by
  obtain ⟨htended, h⟩ : Tended registry _ ∧ LogsKnown _ :=
    logsKnown_run client cluster capacity tail moves
  generalize (World.start registry client cluster capacity tail).run moves = w at htended h
  have hlogs := htended.logs
  constructor
  case story =>
    intro n l hl
    exact (h.known n l hl).story
  case envelopes =>
    intro n l guard hl hclaim
    have hchunked := chunked_of_logStory (h.known n l hl).story hclaim
    have henvelopes := hchunked.envelopes
    rw [hchunked.failures_eq] at henvelopes
    refine ⟨hchunked.full, henvelopes, ?_⟩
    rw [henvelopes, List.map_map]
    apply List.map_congr_left
    intro chunk _
    exact Envelope.chunkBytes?_chunk _ _ chunk
  case written =>
    intro n l hl
    exact ⟨(h.known n l hl).bytes, (h.known n l hl).drained⟩
  case claimed =>
    intro n
    cases hl : w.agent.logs[n]? with
    | some l => exact registered_of_logStory (h.known n l hl).story
    | none =>
      intro failure hdial
      rw [(h.unborn n hl).1] at hdial
      cases hdial
  case released =>
    intro n l guard hl hclaim hgone
    have hstory := (h.known n l hl).story
    rw [hgone] at hstory
    exact released_of_logStory hstory hclaim
  case ends =>
    intro n l guard hl hphase
    have hready : Task.log n ∈ w.agent.ready := by
      apply (hlogs.attended n l hl).resolve_left
      simp [Log.Rests, hphase, Phase.isLive]
    exact ⟨hready, log_released htended hl hphase hready⟩
  case registered => exact isLogOpen_iff hlogs h
  case single =>
    intro n m id hn hm
    exact holdsLog_single hlogs h hn hm
  case attended => exact hlogs.attended
  case taken =>
    intro n l hl hphase htaken
    have hready : Task.log n ∈ w.agent.ready := by
      apply (hlogs.attended n l hl).resolve_left
      simp [Log.Rests, hphase, Phase.isLive]
    exact ⟨hready, log_open_of_taken hl hphase htaken hready⟩
  case closing =>
    intro k s params hs hstage hready prefersStream
    exact closes_step hlogs h hs hstage hready prefersStream
  case answered =>
    intro k s answer hs hlookup hanswered
    exact htended.serving.answer_of_close hs hlookup hanswered

/-- A log is opened twice; the first session reads once and is closed while there is more to
    read. -/
def closedInTime : World Cluster.Memory :=
  let registry := (Registry.empty.register "pod" "open" Handler.openLog).register "pod" "close"
    Handler.closeLog
  let frame (action : String) := ("[\"pod\",\"" ++ action ++ "\",\"7\"," ++
    "\x7b\"name\":\"web\",\"namespace\":\"prod\",\"session_id\":\"s\"\x7d]").toUTF8.toList
  (World.start registry Cluster.Memory.client Cluster.Memory.empty 9 0).run
    [.frame (frame "open"), .frame (frame "open"), .frame (frame "close"), .take, .take, .take,
      .run (.request 0) false, .run (.handler 0) false, .run (.log 0) false, .run (.log 0) false,
      .run (.request 1) false, .run (.handler 1) false, .run (.log 1) false,
      .logWrite 0 [104, 105], .run (.log 0) false, .logWrite 0 [33],
      .run (.request 2) false, .run (.handler 2) false, .run (.log 0) false, .run (.log 0) false]

example : closedInTime.deedsOf (.log 0) =
    [.claim ⟨"s", 1⟩, .dial none, .read [104, 105], .queue (Envelope.log "s" [104, 105]),
      .release ⟨"s", 1⟩] ∧
    closedInTime.writtenTo (.log 0) = [104, 105, 33] ∧
    closedInTime.deedsOf (.log 1) = [.queue (Envelope.log "s" (refusal "s"))] ∧
    closedInTime.agent.isLogOpen "s" = false := by
  decide +kernel

end ClusterAgent.Agent
