/-
  ClusterAgent/Proofs/Agent/Addressing.lean
  =========================================
  **When an opened session can be addressed.**

  Opening a session only starts its bridge; the answer does not wait for it.  The
  bridge registers the identifier in its first step, and from then on until it ends the
  session is found: input reaches it, and a stop stops it.  `sessions_addressable` says
  so of every run.  Until that first step the table does not name the session, and a stop
  that comes so early is lost although it is answered with success: `early_stop_is_lost`.
-/
import ClusterAgent.Proofs.Agent.LogLifecycle

namespace ClusterAgent.Agent

open Handler (Act Program ShellNumber)

variable {σ : Type}

/-! ### Requests that are still to be handled -/

/-- The request has not come yet, or its handler has not asked for anything. -/
def Unhandled (w : World σ) (n : Nat) : Prop :=
  ∀ s, w.agent.requests[n]? = some s → s.stage = .received ∨
    ∃ handler, Handler.all.lookup s.request.resource s.request.action = some handler ∧
      s.stage = .running (handler s.request.params)

theorem Unhandled.stage {w : World σ} {n : Nat} (h : Unhandled w n) {s : Served}
    (hs : w.agent.requests[n]? = some s) {handler : Handler}
    (hlookup : Handler.all.lookup s.request.resource s.request.action = some handler) :
    s.stage = .received ∨ s.stage = .running (handler s.request.params) := by
  rcases h s hs with hreceived | ⟨handler', hlookup', hrunning⟩
  · exact .inl hreceived
  · cases hlookup'.symm.trans hlookup
    exact .inr hrunning

/-- The request brings input for this session. -/
def IsInput (id : String) (r : Request) : Prop :=
  r.resource = "pod" ∧ r.action = Action.stdin.name ∧
    (Handler.StdinParams.schema.decodeLenient r.params).sessionId = id

/-- The request stops this log session. -/
def IsStop (id : String) (r : Request) : Prop :=
  r.resource = "pod" ∧ r.action = Action.closeLog.name ∧
    (Handler.CloseLogParams.schema.decodeLenient r.params).sessionId = id

theorem lookup_input {id : String} {r : Request} (h : IsInput id r) :
    Handler.all.lookup r.resource r.action = some Handler.stdin := by
  rw [h.1, h.2.1]
  unfold Handler.all
  simp [Registry.lookup_register, Action.name]

theorem lookup_stop {id : String} {r : Request} (h : IsStop id r) :
    Handler.all.lookup r.resource r.action = some Handler.closeLog := by
  rw [h.1, h.2.1]
  unfold Handler.all
  simp [Registry.lookup_register, Action.name]

/-! ### Input -/

/-- The answer is not that there is no such session. -/
def Found (answer : Response) : Prop :=
  answer.msg ≠ "Not found session id"

theorem found_of_result (session : String) (taken : Bool) :
    Found (match (if taken then .ok () else .error (.closed session) :
        Except Handler.StdinFailure Unit) with
      | .ok _ => Response.ok
      | .error f => Response.error .paramsError f.message) := by
  cases taken with
  | true =>
    show Response.ok.msg ≠ _
    decide
  | false =>
    intro h
    have hfirst := congrArg (fun s : String => s.toList.head?) h
    simp [Response.error, Handler.StdinFailure.message] at hfirst

/-- Input for a session that is found is not answered as if there were none. -/
theorem stdin_finds (params : Json) :
    ∃ next, Handler.stdin params =
        .ask (.findShell (Handler.StdinParams.schema.decodeLenient params).sessionId) next ∧
      ∀ shell : ShellNumber, ProgramEnds Found (next (some shell)) := by
  refine ⟨_, rfl, ?_⟩
  intro shell
  dsimp only
  split
  · intro taken
    exact found_of_result _ taken
  · intro taken
    cases taken with
    | true =>
      intro taken
      exact found_of_result _ taken
    | false => exact found_of_result _ false

/-- As long as the shell session `k` has not ended, request `n` finds it if it is input for it. -/
def FindsShell (k : ShellNumber) (id : String) (n : Nat) (w : World σ) : Prop :=
  ∃ phase, w.agent.session? .shell k = some (id, phase) ∧ phase ≠ .starting ∧
    (phase = .gone ∨ ∀ s, w.agent.requests[n]? = some s → IsInput id s.request →
      s.stage = .received ∨ s.stage = .running (Handler.stdin s.request.params) ∨
        StageEnds Found s.stage)

theorem findsShell_step {w : World σ} (h : Tended Handler.all w) {k : ShellNumber} {id : String}
    {n : Nat} (hfinds : FindsShell k id n w) (m : Move σ) : FindsShell k id n (w.step m) := by
  obtain ⟨phase, hsession, hstarted, hrequest⟩ := hfinds
  obtain ⟨phase', hsession', hlater⟩ := session?_step h m hsession
  refine ⟨phase', hsession', hlater.started hstarted, ?_⟩
  rcases hrequest with hgone | hrequest
  · exact .inl (hlater.gone hgone)
  by_cases hgone : phase = .gone
  · exact .inl (hlater.gone hgone)
  apply Or.inr
  intro s' hs' hinput
  cases hs : w.agent.requests[n]? with
  | none => exact .inl (received_of_new h.serving hs hs')
  | some s =>
    obtain ⟨s₁, hs₁, hsame, hadvances⟩ := comes_step h.serving hs m
    cases hs'.symm.trans hs₁
    rw [hsame] at hinput ⊢
    rw [lookup_input hinput] at hadvances
    rcases hrequest s hs hinput with hreceived | hrunning | hends
    · rw [hreceived] at hadvances
      generalize s'.stage = stage' at hadvances ⊢
      cases hadvances with
      | stay => exact .inl rfl
      | refuse unknown => cases unknown
      | route handler known =>
        cases known
        exact .inr (.inl rfl)
    · obtain ⟨next, hprogram, hfound⟩ := stdin_finds s.request.params
      rw [hinput.2.2] at hprogram
      rw [hrunning, hprogram] at hadvances
      rw [hprogram]
      generalize s'.stage = stage' at hadvances ⊢
      cases hadvances with
      | stay => exact .inr (.inl rfl)
      | reply act next' reply right =>
        -- The handler looks the session up while the table lists it.
        have hlisted : w.agent.shellTable.get? id = some k := listed h hsession hstarted hgone
        have hreply : reply = some k := right.trans hlisted
        rw [hreply]
        exact .inr (.inr (hfound k))
    · exact .inr (.inr (stageEnds_advances hadvances hends))

/-! ### Stopping -/

/-- The log session `k` has ended or is stopped, unless request `n` is still to stop it. -/
def StopsLog (k : Nat) (id : String) (n : Nat) (w : World σ) : Prop :=
  ∃ l, w.agent.logs[k]? = some l ∧ l.id = id ∧ l.phase ≠ .starting ∧
    (l.phase = .gone ∨ l.stopped = true ∨
      ∀ s, w.agent.requests[n]? = some s → IsStop id s.request →
        s.stage = .received ∨ s.stage = .running (Handler.closeLog s.request.params))

theorem stopsLog_step {w : World σ} (h : Tended Handler.all w) {k : Nat} {id : String} {n : Nat}
    (hstops : StopsLog k id n w) (m : Move σ) : StopsLog k id n (w.step m) := by
  obtain ⟨l, hl, hid, hstarted, hrequest⟩ := hstops
  obtain ⟨l', hl', hid', hlater, hkeeps⟩ := log_later (logChanges_step h.serving m) hl
  refine ⟨l', hl', hid'.trans hid, hlater.started hstarted, ?_⟩
  rcases hrequest with hgone | hstopped | hrequest
  · exact .inl (hlater.gone hgone)
  · exact .inr (.inl (hkeeps hstopped))
  by_cases hgone : l.phase = .gone
  · exact .inl (hlater.gone hgone)
  have hlisted : w.agent.logTable.get? id = some k := by
    have hsession : w.agent.session? .log k = some (id, l.phase) := by simp [session?, hl, hid]
    exact listed h hsession hstarted hgone
  by_cases hdone : l'.stopped = true
  · exact .inr (.inl hdone)
  refine .inr (.inr ?_)
  intro s' hs' hstop
  cases hs : w.agent.requests[n]? with
  | none => exact .inl (received_of_new h.serving hs hs')
  | some s =>
    obtain ⟨s₁, hs₁, hsame, hadvances⟩ := comes_step h.serving hs m
    cases hs'.symm.trans hs₁
    rw [hsame] at hstop ⊢
    rw [lookup_stop hstop] at hadvances
    rcases hrequest s hs hstop with hreceived | hrunning
    · rw [hreceived] at hadvances
      generalize s'.stage = stage' at hadvances ⊢
      cases hadvances with
      | stay => exact .inl rfl
      | refuse unknown => cases unknown
      | route handler known =>
        cases known
        exact .inr rfl
    · rcases kept_or_run h.serving hs m with hkept | ⟨t, prefersStream, rfl, ht, howner⟩
      · cases hkept.symm.trans hs'
        exact .inr hrunning
      · -- The handler stops the session, which it had not been said to do.
        rw [hrunning] at howner
        cases howner
        obtain ⟨-, -, hlogs⟩ := close_step hs hrunning ht prefersStream
        rw [hstop.2.2, hlisted] at hlogs
        obtain rfl : { l with stopped := true } = l' := by simpa [hlogs, hl] using hl'
        exact absurd rfl hdone

/-! ### Stopping too early -/

/-- No log session is stopped before its first step. -/
def Unstopped (w : World σ) : Prop :=
  ∀ (k : Nat) (l : Log), w.agent.logs[k]? = some l → l.phase = .starting → l.stopped = false

theorem unstopped_step {w : World σ} (h : Tended Handler.all w) (hw : Unstopped w) (m : Move σ) :
    Unstopped (w.step m) := by
  intro k l' hl' hstarting
  cases logChanges_step h.serving m with
  | beside agent _ _ =>
    cases hl : w.agent.logs[k]? with
    | none => exact (agent.new k hl l' hl').2.1
    | some l =>
      obtain ⟨l₁, hl₁, htouched, -⟩ := agent.old k l hl
      cases hl'.symm.trans hl₁
      have hbefore : l.phase = .starting := htouched.phase.symm.trans hstarting
      rw [Bool.eq_false_iff]
      intro hstopped
      -- Only the table leads to a session, and it does not name this one yet.
      obtain ⟨id, hnamed⟩ := agent.named k l l' hl hl' (hw k l hl hbefore) hstopped
      exact unlisted h.logs hl hbefore id hnamed
  | wrote n t bytes was live agent _ _ =>
    rw [agent, logs_wrote was] at hl'
    split at hl'
    · cases hl'
      rw [show t.phase = .starting from hstarting] at live
      cases live
    · exact hw k l' hl' hstarting
  | own n t p was moved agent _ _ =>
    obtain ⟨t', ht', -, hstopped, hstep, -⟩ := moved.own
    rw [agent, logs_own moved ht'] at hl'
    split at hl'
    · cases hl'
      have hbefore : t.phase = .starting := by
        by_contra hstarted
        exact (later_of_logStep hstep).started hstarted hstarting
      exact hstopped.trans (hw n t was hbefore)
    · exact hw k l' hl' hstarting

/-- A stop that is handled before the first step leaves the session as it is. -/
theorem stop_misses {w : World σ} (h : Tended Handler.all w) {k n : Nat} {id : String} {l : Log}
    {s : Served} (hl : w.agent.logs[k]? = some l) (hstarting : l.phase = .starting)
    (hs : w.agent.requests[n]? = some s) (hstop : IsStop id s.request)
    (hrunning : s.stage = .running (Handler.closeLog s.request.params)) (prefersStream : Bool) :
    let w' := w.step (.run (.handler n) prefersStream)
    w'.agent.logs[k]? = w.agent.logs[k]? ∧
      (w.agent.isLogOpen id = false → w'.agent.logs = w.agent.logs) := by
  by_cases hready : Task.handler n ∈ w.agent.ready
  · obtain ⟨-, -, hlogs⟩ := close_step hs hrunning hready prefersStream
    rw [hstop.2.2] at hlogs
    cases hfound : w.agent.logTable.get? id with
    | none =>
      rw [hfound] at hlogs
      exact ⟨congrArg (·[k]?) hlogs, fun _ => hlogs⟩
    | some m =>
      have hm : m ≠ k := by
        rintro rfl
        exact unlisted h.logs hl hstarting id hfound
      rw [hfound] at hlogs
      refine ⟨?_, ?_⟩
      · rw [hlogs]
        simp [hm]
      · intro hfree
        have hnone : w.agent.logTable.get? id = none := by
          simpa [SessionTable.get?, isLogOpen, SessionTable.contains] using hfree
        cases hnone.symm.trans hfound
  · have hsame : w.step (.run (.handler n) prefersStream) = w :=
      w.runTask_of_not_mem hready prefersStream
    rw [hsame]
    exact ⟨rfl, fun _ => rfl⟩

/-! ### Whatever happens -/

/-- The request `n` to open a session with this identifier was answered with success. -/
def Succeeded (w : World σ) (f : Family) (n : Nat) (id : String) : Prop :=
  ∃ s answer, w.agent.requests[n]? = some s ∧ Opens f s.request ∧
    f.sessionId s.request.params = id ∧ s.stage = .answered answer ∧ answer.isSuccess = true

/-- What can be relied on of the sessions of a world, however it goes on. -/
structure Addressable (w : World σ) : Prop where
  /-- Every open that is answered with success has started a session, and no two the same. -/
  started : ∀ f : Family, ∃ own : Nat → Nat,
    (∀ n id, Succeeded w f n id → ∃ phase, w.agent.session? f (own n) = some (id, phase)) ∧
      ∀ n m id id', Succeeded w f n id → Succeeded w f m id' → own n = own m → n = m
  /-- A session that has not taken its first step can take it, and registers in it its identifier
      unless that is in use. -/
  registers : ∀ (f : Family) (n : Nat) (id : String),
    w.agent.session? f n = some (id, .starting) →
    f.task n ∈ w.agent.ready ∧
      ((w.agent.tableOf f).contains id = false → ∀ prefersStream,
        ((w.step (.run (f.task n) prefersStream)).agent.tableOf f).get? id = some n)
  /-- From its first step until it ends the table lists it under its identifier. -/
  listed : ∀ (f : Family) (n : Nat) (id : String) (phase : Phase),
    w.agent.session? f n = some (id, phase) → phase ≠ .starting → ∀ after : List (Move σ),
    ∃ phase', (w.run after).agent.session? f n = some (id, phase') ∧ phase' ≠ .starting ∧
      (phase' = .gone ∨ ((w.run after).agent.tableOf f).get? id = some n)
  /-- Input that is handled in that time is not told that there is no such session. -/
  input : ∀ (k : ShellNumber) (id : String) (phase : Phase),
    w.agent.session? .shell k = some (id, phase) → phase ≠ .starting → ∀ n, Unhandled w n →
    ∀ (after : List (Move σ)) (s : Served) (answer : Response),
    (w.run after).agent.requests[n]? = some s → IsInput id s.request →
    s.stage = .answered answer →
    (w.run after).agent.session? .shell k = some (id, .gone) ∨ Found answer
  /-- A stop that is handled in that time stops the session, which is gone when all is quiet. -/
  stop : ∀ (k : Nat) (id : String) (phase : Phase),
    w.agent.session? .log k = some (id, phase) → phase ≠ .starting → ∀ n, Unhandled w n →
    ∀ (after : List (Move σ)) (s : Served) (answer : Response),
    (w.run after).agent.requests[n]? = some s → IsStop id s.request →
    s.stage = .answered answer →
    ∃ l, (w.run after).agent.logs[k]? = some l ∧ l.id = id ∧
      (l.phase = .gone ∨ l.stopped = true) ∧
      ((w.run after).agent.ready = [] → l.phase = .gone)
  /-- Until its first step the table does not name a log session under any identifier, and it has not
      been stopped, whatever stops have been handled. -/
  early : ∀ (k : Nat) (id : String), w.agent.session? .log k = some (id, .starting) →
    (∀ other, w.agent.logTable.get? other ≠ some k) ∧
      ∃ l, w.agent.logs[k]? = some l ∧ l.stopped = false
  /-- A stop that is handled in that time leaves it as it is, and every other log session too unless
      another bridge has the identifier. -/
  missed : ∀ (k : Nat) (id : String), w.agent.session? .log k = some (id, .starting) →
    ∀ (n : Nat) (s : Served), w.agent.requests[n]? = some s → IsStop id s.request →
    s.stage = .running (Handler.closeLog s.request.params) → ∀ prefersStream,
    let w' := w.step (.run (.handler n) prefersStream)
    w'.agent.logs[k]? = w.agent.logs[k]? ∧
      (w.agent.isLogOpen id = false → w'.agent.logs = w.agent.logs)
  /-- Whether it has reached a session or not, a stop is answered with success. -/
  stopAnswered : ∀ (n : Nat) (id : String) (s : Served) (answer : Response),
    w.agent.requests[n]? = some s → IsStop id s.request → s.stage = .answered answer →
    answer = Response.ok
  /-- When all is quiet, every session has ended or is listed. -/
  quiet : w.agent.ready = [] → ∀ (f : Family) (n : Nat) (id : String) (phase : Phase),
    w.agent.session? f n = some (id, phase) →
    phase = .gone ∨ (w.agent.tableOf f).get? id = some n

theorem Tended.run {w : World σ} (h : Tended Handler.all w) (moves : List (Move σ)) :
    Tended Handler.all (w.run moves) :=
  World.run_induction h (fun _ m h => h.step m) moves

/-- What every move keeps in a tended world holds in all that can come of it. -/
theorem keep_run {P : World σ → Prop} {w : World σ} (h : Tended Handler.all w) (hw : P w)
    (keep : ∀ w, Tended Handler.all w → P w → ∀ m, P (w.step m)) (moves : List (Move σ)) :
    P (w.run moves) := by
  have hboth : Tended Handler.all (w.run moves) ∧ P (w.run moves) :=
    World.run_induction (P := fun w => Tended Handler.all w ∧ P w) ⟨h, hw⟩
      (fun w m hw => ⟨hw.1.step m, keep w hw.1 hw.2 m⟩) moves
  exact hboth.2

theorem unstopped_run (client : Cluster.Client σ) (cluster : σ) (capacity tail : Nat)
    (moves : List (Move σ)) :
    Unstopped ((World.start Handler.all client cluster capacity tail).run moves) := by
  have hstart : Unstopped (World.start Handler.all client cluster capacity tail) := by
    intro k l hl
    cases hl
  exact keep_run (tended_run client cluster capacity tail []) hstart
    (fun w h hw m => unstopped_step h hw m) moves

theorem registers_of_starting {w : World σ} (h : Tended Handler.all w) {f : Family} {n : Nat}
    {id : String} (hsession : w.agent.session? f n = some (id, .starting))
    (hfree : (w.agent.tableOf f).contains id = false) (prefersStream : Bool) :
    ((w.step (.run (f.task n) prefersStream)).agent.tableOf f).get? id = some n := by
  have hready := ready_of_session_starting h hsession
  have hopening : ∃ guard, (w.step (.run (f.task n) prefersStream)).agent.session? f n =
      some (id, .opening guard) := by
    show ∃ guard, (w.runTask (f.task n) prefersStream).agent.session? f n = _
    rw [(w.runTask_ready hready prefersStream).1]
    cases f with
    | shell =>
      obtain ⟨s, hs, rfl, hphase⟩ := shell_of_session hsession
      have hregister : w.agent.shellTable.register s.id n = .ok (⟨s.id, w.agent.shellTable.next⟩,
          ⟨w.agent.shellTable.slots ++ [(s.id, w.agent.shellTable.next, n)],
            w.agent.shellTable.next + 1⟩) := by
        have hfree' : w.agent.shellTable.contains s.id = false := hfree
        simp [SessionTable.register, hfree']
      refine ⟨⟨s.id, w.agent.shellTable.next⟩, ?_⟩
      simp [session?, shells_after, Family.task, stepOf, step, stepShell, hs, hphase, claimShell,
        hregister, goes, setShellPhase, modifyShell]
    | log =>
      obtain ⟨l, hl, rfl, hphase⟩ := log_of_session hsession
      have hregister : w.agent.logTable.register l.id n = .ok (⟨l.id, w.agent.logTable.next⟩,
          ⟨w.agent.logTable.slots ++ [(l.id, w.agent.logTable.next, n)],
            w.agent.logTable.next + 1⟩) := by
        have hfree' : w.agent.logTable.contains l.id = false := hfree
        simp [SessionTable.register, hfree']
      refine ⟨⟨l.id, w.agent.logTable.next⟩, ?_⟩
      simp [session?, logs_after, Family.task, stepOf, step, stepLog, hl, hphase, claimLog,
        hregister, goes, setLogPhase, modifyLog]
  obtain ⟨guard, hopening⟩ := hopening
  exact listed (h.step _) hopening (by simp) (by simp)

theorem gone_of_quiet {w : World σ} (h : Tended Handler.all w) (hquiet : w.agent.ready = [])
    {k : Nat} {l : Log} (hl : w.agent.logs[k]? = some l) (hstopped : l.stopped = true) :
    l.phase = .gone := by
  rcases h.logs.attended k l hl with (hgone | ⟨-, hgoes, -⟩) | hready
  · exact hgone
  · rw [hstopped] at hgoes
    cases hgoes
  · rw [hquiet] at hready
    cases hready

/-- Each open that was answered with success has a session of its own. -/
theorem sessions_of_owners {w : World σ} {own : Nat → Option Nat} (h : Owners w own) (f : Family) :
    ∃ own : Nat → Nat,
      (∀ n id, Succeeded w f n id → ∃ phase, w.agent.session? f (own n) = some (id, phase)) ∧
        ∀ n m id id', Succeeded w f n id → Succeeded w f m id' → own n = own m → n = m := by
  refine ⟨fun n => (own n).getD 0, ?_, ?_⟩
  · rintro n id ⟨s, answer, hs, hopens, rfl, hanswered, hsuccess⟩
    obtain ⟨k, phase, hown, hsession⟩ := started_of_success h hs hopens hanswered hsuccess
    exact ⟨phase, by simpa [hown] using hsession⟩
  · rintro n m id id' ⟨s, answer, hs, hopens, -, hanswered, hsuccess⟩
      ⟨t, answer', ht, hopens', -, hanswered', hsuccess'⟩ hsame
    obtain ⟨k, -, hown, -⟩ := started_of_success h hs hopens hanswered hsuccess
    obtain ⟨k', -, hown', -⟩ := started_of_success h ht hopens' hanswered' hsuccess'
    have hk : k = k' := by simpa [hown, hown'] using hsame
    exact h.single n m s t f k hs ht hopens hopens' hown (hk ▸ hown')

theorem listed_run {w : World σ} (h : Tended Handler.all w) {f : Family} {n : Nat} {id : String}
    {phase : Phase} (hsession : w.agent.session? f n = some (id, phase))
    (hstarted : phase ≠ .starting) (after : List (Move σ)) :
    ∃ phase', (w.run after).agent.session? f n = some (id, phase') ∧ phase' ≠ .starting ∧
      (phase' = .gone ∨ ((w.run after).agent.tableOf f).get? id = some n) := by
  have hlater : ∃ phase', (w.run after).agent.session? f n = some (id, phase') ∧
      phase.Later phase' := by
    refine keep_run (P := fun w => ∃ phase', w.agent.session? f n = some (id, phase') ∧
      phase.Later phase') h ⟨phase, hsession, Phase.Later.refl _⟩ ?_ after
    rintro w' h' ⟨phase', hsession', hlater⟩ m
    obtain ⟨phase'', hsession'', hlater'⟩ := session?_step h' m hsession'
    exact ⟨phase'', hsession'', hlater.trans hlater'⟩
  obtain ⟨phase', hsession', hlater⟩ := hlater
  refine ⟨phase', hsession', hlater.started hstarted, ?_⟩
  by_cases hgone : phase' = .gone
  · exact .inl hgone
  · exact .inr (listed (h.run after) hsession' (hlater.started hstarted) hgone)

/-- Input that was still to be handled when the session had begun finds it, or its end. -/
theorem input_finds {w : World σ} (h : Tended Handler.all w) {k : ShellNumber} {id : String}
    {phase : Phase} (hsession : w.agent.session? .shell k = some (id, phase))
    (hstarted : phase ≠ .starting) {n : Nat} (hunhandled : Unhandled w n)
    (after : List (Move σ)) {s : Served} {answer : Response}
    (hs : (w.run after).agent.requests[n]? = some s) (hinput : IsInput id s.request)
    (hanswered : s.stage = .answered answer) :
    (w.run after).agent.session? .shell k = some (id, .gone) ∨ Found answer := by
  have hfinds : FindsShell k id n w := by
    refine ⟨phase, hsession, hstarted, .inr ?_⟩
    intro t ht hinput'
    rcases hunhandled.stage ht (lookup_input hinput') with hreceived | hrunning
    · exact .inl hreceived
    · exact .inr (.inl hrunning)
  obtain ⟨phase', hsession', -, hrequest⟩ := keep_run h hfinds
    (fun w h hfinds m => findsShell_step h hfinds m) after
  rcases hrequest with rfl | hrequest
  · exact .inl hsession'
  · have hstage := hrequest s hs hinput
    rw [hanswered] at hstage
    rcases hstage with hreceived | hrunning | hfound
    · cases hreceived
    · cases hrunning
    · exact .inr hfound

/-- A stop that was still to be handled when the session had begun stops it, unless it ends first. -/
theorem stop_reaches {w : World σ} (h : Tended Handler.all w) {k : Nat} {id : String}
    {phase : Phase} (hsession : w.agent.session? .log k = some (id, phase))
    (hstarted : phase ≠ .starting) {n : Nat} (hunhandled : Unhandled w n)
    (after : List (Move σ)) {s : Served} {answer : Response}
    (hs : (w.run after).agent.requests[n]? = some s) (hstop : IsStop id s.request)
    (hanswered : s.stage = .answered answer) :
    ∃ l, (w.run after).agent.logs[k]? = some l ∧ l.id = id ∧
      (l.phase = .gone ∨ l.stopped = true) := by
  have hstops : StopsLog k id n w := by
    obtain ⟨l, hl, hid, rfl⟩ := log_of_session hsession
    refine ⟨l, hl, hid, hstarted, .inr (.inr ?_)⟩
    intro t ht hstop'
    exact hunhandled.stage ht (lookup_stop hstop')
  obtain ⟨l, hl, hid, -, hrequest⟩ := keep_run h hstops
    (fun w h hstops m => stopsLog_step h hstops m) after
  refine ⟨l, hl, hid, ?_⟩
  rcases hrequest with hgone | hstopped | hrequest
  · exact .inl hgone
  · exact .inr hstopped
  · have hstage := hrequest s hs hstop
    rw [hanswered] at hstage
    rcases hstage with hreceived | hrunning
    · cases hreceived
    · cases hrunning

theorem listed_of_quiet {w : World σ} (h : Tended Handler.all w) (hquiet : w.agent.ready = [])
    {f : Family} {n : Nat} {id : String} {phase : Phase}
    (hsession : w.agent.session? f n = some (id, phase)) :
    phase = .gone ∨ (w.agent.tableOf f).get? id = some n := by
  have hstarted : phase ≠ .starting := by
    rintro rfl
    have hready := ready_of_session_starting h hsession
    rw [hquiet] at hready
    cases hready
  by_cases hgone : phase = .gone
  · exact .inl hgone
  · exact .inr (listed h hsession hstarted hgone)

/-- **Opened sessions can be addressed from the first step of their bridges on**, in every run of
    the agent and under every schedule, and a stop that is handled before does not reach them. -/
theorem sessions_addressable (client : Cluster.Client σ) (cluster : σ) (capacity tail : Nat)
    (moves : List (Move σ)) :
    Addressable ((World.start Handler.all client cluster capacity tail).run moves) := by
  have h : Tended Handler.all _ := tended_run client cluster capacity tail moves
  obtain ⟨own, howners⟩ := owners_run client cluster capacity tail moves
  have hunstopped : Unstopped _ := unstopped_run client cluster capacity tail moves
  generalize (World.start Handler.all client cluster capacity tail).run moves = w
    at h howners hunstopped
  constructor
  case started => exact sessions_of_owners howners
  case registers =>
    intro f n id hsession
    exact ⟨ready_of_session_starting h hsession, registers_of_starting h hsession⟩
  case listed =>
    intro f n id phase hsession hstarted after
    exact listed_run h hsession hstarted after
  case input =>
    intro k id phase hsession hstarted n hunhandled after s answer hs hinput hanswered
    exact input_finds h hsession hstarted hunhandled after hs hinput hanswered
  case stop =>
    intro k id phase hsession hstarted n hunhandled after s answer hs hstop hanswered
    obtain ⟨l, hl, hid, hover⟩ :=
      stop_reaches h hsession hstarted hunhandled after hs hstop hanswered
    refine ⟨l, hl, hid, hover, ?_⟩
    intro hquiet
    exact hover.elim (fun hgone => hgone) (gone_of_quiet (h.run after) hquiet hl)
  case early =>
    intro k id hsession
    obtain ⟨l, hl, -, hstarting⟩ := log_of_session hsession
    exact ⟨unlisted h.logs hl hstarting, l, hl, hunstopped k l hl hstarting⟩
  case missed =>
    intro k id hsession n s hs hstop hrunning prefersStream
    obtain ⟨l, hl, -, hstarting⟩ := log_of_session hsession
    exact stop_misses h hl hstarting hs hstop hrunning prefersStream
  case stopAnswered =>
    intro n id s answer hs hstop hanswered
    exact h.serving.answer_of_close hs (lookup_stop hstop) hanswered
  case quiet =>
    intro hquiet f n id phase hsession
    exact listed_of_quiet h hquiet hsession

/-! ### Before the first step -/

/-- A request of the pod sessions with the identifier `s`. -/
def sessionFrame (action : Action) (requestId : String) : List UInt8 :=
  ("[\"pod\",\"" ++ action.name ++ "\",\"" ++ requestId ++ "\"," ++
    "\x7b\"name\":\"web\",\"namespace\":\"prod\",\"session_id\":\"s\"\x7d]").toUTF8.toList

/-- The request is taken, routed and handled, and its answer is sent, before anybody else moves. -/
def servedAtOnce (n : Nat) (frame : List UInt8) : List (Move Cluster.Memory) :=
  [.frame frame, .take, .run (.request n) false, .run (.handler n) false,
    .run (.handler n) false, .run (.request n) false]

/-- A session is opened; its bridge has not taken its first step. -/
def justOpened (action : Action) : World Cluster.Memory :=
  (World.start Handler.all Cluster.Memory.client Cluster.Memory.empty 9 0).run
    (servedAtOnce 0 (sessionFrame action "1"))

/-- **A stop that comes before the first step is lost**: open and stop are both answered with
    success, and when all is quiet the log is followed.  Input that comes so early is told that
    there is no such session. -/
theorem early_stop_is_lost :
    (let opened := justOpened .openLog
      let quiet := opened.run (servedAtOnce 1 (sessionFrame .closeLog "2") ++
        [.run (.log 0) false, .run (.log 0) false, .run (.log 0) false])
      opened.sent = [Envelope.response "1" Response.ok] ∧ opened.agent.isLogOpen "s" = false ∧
        quiet.sent = [Envelope.response "1" Response.ok, Envelope.response "2" Response.ok] ∧
        quiet.agent.ready = [] ∧ quiet.agent.timers = [] ∧
        quiet.agent.logs.map Log.phase = [.live ⟨"s", 1⟩] ∧
        quiet.agent.isLogOpen "s" = true) ∧
      let opened := justOpened .exec
      opened.sent = [Envelope.response "1" Response.ok] ∧ opened.agent.isShellOpen "s" = false ∧
        (opened.run (servedAtOnce 1 (sessionFrame .stdin "2"))).sent =
          [Envelope.response "1" Response.ok,
            Envelope.response "2" (Response.error .paramsError "Not found session id")] := by
  decide +kernel

end ClusterAgent.Agent
