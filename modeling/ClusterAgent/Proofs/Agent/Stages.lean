/-
  ClusterAgent/Proofs/Agent/Stages.lean
  =====================================
  **From one stage of a request to the next.**

  Only the two tasks of a request take it from one stage to another, and `Advances`
  lists the ways: it is routed or refused, its handler gets a reply or waits for room,
  the handler is done, the answer is sent.  What a session table tells a handler is told
  at the moment of the step.  A statement about all that a handler may still come to is
  therefore kept until its answer is sent (`StageEnds`).
-/
import ClusterAgent.Proofs.Agent.Requests

namespace ClusterAgent.Agent

open Handler (Act Outcome Program ShellNumber)

variable {σ : Type}

/-! ### The ways of a stage -/

/-- A reply that a handler may get: about sessions it is told what is in their tables. -/
def Replies (shells : SessionTable ShellNumber) (logs : SessionTable Nat) :
    (act : Act) → act.Reply → Prop
  | .findShell id, found => found = shells.get? id
  | .cancelLog id, found => found = (logs.get? id).isSome
  | _, _ => True

/-- One step of a task of a request with this handler takes it from stage to stage. -/
inductive Advances (shells : SessionTable ShellNumber) (logs : SessionTable Nat)
    (handler? : Option Handler) (r : Request) : Stage → Stage → Prop where
  | stay (stage : Stage) : Advances shells logs handler? r stage stage
  | refuse (unknown : handler? = none) :
      Advances shells logs handler? r .received (.answered (notFound r))
  | route (handler : Handler) (known : handler? = some handler) :
      Advances shells logs handler? r .received (.running (handler r.params))
  | reply (act : Act) (next : act.Reply → Program Response) (reply : act.Reply)
      (right : Replies shells logs act reply) :
      Advances shells logs handler? r (.running (.ask act next)) (.running (next reply))
  | waitSize (shell : ShellNumber) (size : Cluster.TerminalSize) (next : Bool → Program Response) :
      Advances shells logs handler? r (.running (.ask (.sendResize shell size) next))
        (.delivering shell (.size size) next)
  | waitInput (shell : ShellNumber) (bytes : List UInt8) (next : Bool → Program Response) :
      Advances shells logs handler? r (.running (.ask (.sendInput shell bytes) next))
        (.delivering shell (.input bytes) next)
  | resume (shell : ShellNumber) (parcel : Parcel) (rest : Bool → Program Response)
      (taken : Bool) :
      Advances shells logs handler? r (.delivering shell parcel rest) (.running (rest taken))
  | conclude (answer : Response) :
      Advances shells logs handler? r (.running (.done answer)) (.finished answer)
  | fail (panic : Handler.Panic) :
      Advances shells logs handler? r (.running (.fail panic))
        (.finished (Outcome.broke panic).response)
  | send (answer : Response) : Advances shells logs handler? r (.finished answer) (.answered answer)

/-- Request `n`, which was `s`, has come to a further stage in `b`. -/
def Comes (a : Agent σ) (n : Nat) (s : Served) (b : Agent σ) : Prop :=
  ∃ s', b.requests[n]? = some s' ∧ s'.request = s.request ∧
    Advances a.shellTable a.logTable (a.registry.lookup s.request.resource s.request.action)
      s.request s.stage s'.stage

theorem comes_setStage {a b c : Agent σ} {n : Nat} {s : Served} (stage : Stage)
    (hs : a.requests[n]? = some s) (hb : b.requests = a.requests)
    (hc : c.requests = (b.setStage n stage).requests)
    (hstep : Advances a.shellTable a.logTable
      (a.registry.lookup s.request.resource s.request.action) s.request s.stage stage) :
    Comes a n s c := by
  refine ⟨{ s with stage }, ?_, rfl, hstep⟩
  rw [hc, requests_setStage b (hb ▸ hs), if_pos rfl]

theorem comes_same {a b : Agent σ} {n : Nat} {s : Served} (hs : a.requests[n]? = some s)
    (hb : b.requests = a.requests) : Comes a n s b :=
  ⟨s, hb ▸ hs, rfl, .stay _⟩

theorem comes_hand {a : Agent σ} {n : Nat} {s : Served} (shell : ShellNumber) (parcel : Parcel)
    {next : Bool → Program Response} (hs : a.requests[n]? = some s)
    (hwait : Advances a.shellTable a.logTable
      (a.registry.lookup s.request.resource s.request.action) s.request s.stage
      (.delivering shell parcel next))
    (hgo : ∀ taken, Advances a.shellTable a.logTable
      (a.registry.lookup s.request.resource s.request.action) s.request s.stage
      (.running (next taken))) :
    Comes a n s (a.hand n shell parcel next).agent := by
  unfold hand deliver
  cases hshell : a.shells[shell]? with
  | none => exact comes_setStage _ hs rfl rfl (hgo false)
  | some session =>
    by_cases hlistens : session.isListening
    · by_cases hroom : session.hasRoom parcel
      · simp only [hlistens, Bool.not_true, Bool.false_eq_true, if_false, hroom, if_true]
        exact comes_setStage _ hs rfl rfl (hgo true)
      · simp only [hlistens, Bool.not_true, Bool.false_eq_true, if_false, hroom]
        exact comes_setStage _ hs rfl rfl hwait
    · simp only [hlistens, Bool.not_false, if_true]
      exact comes_setStage _ hs rfl rfl (hgo false)

theorem comes_ask {a : Agent σ} {n : Nat} {s : Served} {rest : Program Response}
    (hs : a.requests[n]? = some s) (hstage : s.stage = .running rest) :
    Comes a n s (a.ask n rest).agent := by
  cases rest with
  | done r =>
    refine comes_setStage (.finished r) hs rfl rfl ?_
    rw [hstage]
    exact .conclude r
  | fail p =>
    refine comes_setStage (.finished (Outcome.broke p).response) hs rfl rfl ?_
    rw [hstage]
    exact .fail p
  | ask act next =>
    have hgo : ∀ (b : Agent σ) (reply : act.Reply), b.requests = a.requests →
        Replies a.shellTable a.logTable act reply →
        Comes a n s (b.continueWith n (next reply)).agent := by
      intro b reply hb hright
      refine comes_setStage (.running (next reply)) hs hb rfl ?_
      rw [hstage]
      exact .reply act next reply hright
    cases act with
    | cluster call => exact hgo { a with cluster := (a.client.call a.cluster call).2 } _ rfl trivial
    | pause ms =>
      refine comes_setStage (.running (next ())) hs rfl rfl ?_
      rw [hstage]
      exact .reply _ next () trivial
    | setGate isOpen => exact hgo { a with gate := ⟨isOpen⟩ } () rfl trivial
    | openShell id target command size =>
      exact hgo (a.addShell id target command size) () rfl trivial
    | findShell id => exact hgo a _ rfl rfl
    | sendResize shell size =>
      refine comes_hand shell (.size size) hs ?_ ?_
      · rw [hstage]
        exact .waitSize shell size next
      · intro taken
        rw [hstage]
        exact .reply _ next taken trivial
    | sendInput shell bytes =>
      refine comes_hand shell (.input bytes) hs ?_ ?_
      · rw [hstage]
        exact .waitInput shell bytes next
      · intro taken
        rw [hstage]
        exact .reply _ next taken trivial
    | openLog id target => exact hgo (a.addLog id target) () rfl trivial
    | cancelLog id =>
      simp only [ask]
      cases hfound : a.logTable.get? id with
      | none =>
        have hright : false = (a.logTable.get? id).isSome := by rw [hfound]; rfl
        exact hgo a false rfl hright
      | some l =>
        have hright : true = (a.logTable.get? id).isSome := by rw [hfound]; rfl
        exact hgo (a.stopLog l) true rfl hright

theorem comes_stepHandler {a : Agent σ} {n : Nat} {s : Served} (hs : a.requests[n]? = some s) :
    Comes a n s (a.stepHandler n).agent := by
  unfold stepHandler
  rw [hs, Option.map_some]
  cases hstage : s.stage with
  | received => exact comes_same hs rfl
  | finished => exact comes_same hs rfl
  | answered => exact comes_same hs rfl
  | running rest => exact comes_ask hs hstage
  | delivering shell parcel rest =>
    have hgo : ∀ (b : Agent σ) (taken : Bool), b.requests = a.requests →
        Comes a n s (b.continueWith n (rest taken)).agent := by
      intro b taken hb
      refine comes_setStage (.running (rest taken)) hs hb rfl ?_
      rw [hstage]
      exact .resume shell parcel rest taken
    dsimp only
    cases hshell : a.shells[shell]? with
    | none => exact hgo a false rfl
    | some session =>
      by_cases hlistens : session.isListening
      · by_cases hwaits : session.waiting.any (·.1 == n)
        · simp only [hlistens, Bool.not_true, Bool.false_eq_true, if_false, hwaits, if_true]
          exact comes_same hs rfl
        · simp only [hlistens, Bool.not_true, Bool.false_eq_true, if_false, hwaits]
          exact hgo _ true rfl
      · simp only [hlistens, Bool.not_false, if_true]
        exact hgo a false rfl

theorem comes_stepRequest {a : Agent σ} {n : Nat} {s : Served} (hs : a.requests[n]? = some s) :
    Comes a n s (a.stepRequest n).agent := by
  have hlt := (List.getElem?_eq_some_iff.mp hs).1
  obtain ⟨r, stage, answeredAt⟩ := s
  unfold stepRequest
  rw [hs]
  cases stage with
  | running => exact comes_same hs rfl
  | delivering => exact comes_same hs rfl
  | answered => exact comes_same hs rfl
  | finished answer =>
    exact ⟨⟨r, .answered answer, some a.now⟩, by simp [reply, rests, hlt], rfl, .send answer⟩
  | received =>
    cases hlookup : a.registry.lookup r.resource r.action with
    | none =>
      simp only [hlookup]
      exact ⟨⟨r, .answered (notFound r), some a.now⟩, by simp [reply, rests, hlt], rfl,
        .refuse hlookup⟩
    | some handler =>
      simp only [hlookup]
      exact comes_setStage (.running (handler r.params)) hs rfl rfl
        (.route handler hlookup)

/-! ### The moves of a request -/

/-- A step of a task whose turn it is not leaves a request where it is. -/
theorem requests_of_not_owner {a : Agent σ} {n : Nat} {s : Served} {t : Task}
    (hs : a.requests[n]? = some s) (ht : t = .request n ∨ t = .handler n)
    (howner : s.stage.owner? n ≠ some t) (prefersStream : Bool) :
    (a.stepOf prefersStream t).agent.requests = a.requests := by
  obtain ⟨r, stage, answeredAt⟩ := s
  rcases ht with rfl | rfl
  · cases stage <;> simp_all [Stage.owner?, stepOf, step, stepRequest, rests]
  · cases stage <;> simp_all [Stage.owner?, stepOf, step, stepHandler, rests]

/-- What a move does to the list of requests: nothing, or it takes one in, or it is a step of a task
    of one of them. -/
theorem requests_step (w : World σ) (m : Move σ) :
    (w.step m).agent.requests = w.agent.requests ∨
      (∃ r, (w.step m).agent.requests = w.agent.requests ++ [⟨r, .received, none⟩]) ∨
      ∃ t prefersStream n, m = .run t prefersStream ∧ t ∈ w.agent.ready ∧
        (t = .request n ∨ t = .handler n) := by
  have hquiet : m.IsQuiet → (w.step m).agent.requests = w.agent.requests :=
    fun hm => (quiet_step w m hm).agent.requests
  cases m with
  | run t prefersStream =>
    by_cases ht : t ∈ w.agent.ready
    · cases t with
      | request n => exact .inr (.inr ⟨_, prefersStream, n, rfl, ht, .inl rfl⟩)
      | handler n => exact .inr (.inr ⟨_, prefersStream, n, rfl, ht, .inr rfl⟩)
      | shell n =>
        apply Or.inl
        show (w.runTask _ prefersStream).agent.requests = _
        rw [(w.runTask_ready ht prefersStream).1, requests_after]
        exact (undisturbed_stepShell (w.agent.withoutTask (.shell n)) n).requests
      | log n =>
        apply Or.inl
        show (w.runTask _ prefersStream).agent.requests = _
        rw [(w.runTask_ready ht prefersStream).1, requests_after]
        exact (undisturbed_stepLog prefersStream (w.agent.withoutTask (.log n)) n).requests
    · apply Or.inl
      show (w.runTask t prefersStream).agent.requests = _
      rw [w.runTask_of_not_mem ht]
  | take =>
    simp only [World.step, World.take]
    split
    · exact .inl rfl
    · rename_i r rest _
      split
      · rename_i intake hoffer
        unfold Intake.offer at hoffer
        split at hoffer
        · cases hoffer
          exact .inr (.inl ⟨r, rfl⟩)
        · cases hoffer
      · exact .inl rfl
  | frame bytes =>
    simp only [World.step, World.hear]
    split <;> exact .inl rfl
  | depart =>
    simp only [World.step, World.depart]
    split <;> exact .inl rfl
  | change kind change object =>
    simp only [World.step, onChange]
    split <;> exact .inl rfl
  | _ => exact .inl (hquiet trivial)

/-- Either a move leaves a request alone, or it is a step of the task whose turn it is. -/
theorem kept_or_run {registry : Registry Handler} {w : World σ} (h : Serving registry w) {n : Nat}
    {s : Served} (hs : w.agent.requests[n]? = some s) (m : Move σ) :
    (w.step m).agent.requests[n]? = some s ∨
      ∃ t prefersStream, m = .run t prefersStream ∧ t ∈ w.agent.ready ∧
        s.stage.owner? n = some t := by
  rcases requests_step w m with hsame | ⟨r, hmore⟩ | ⟨t, prefersStream, k, rfl, ht, hk⟩
  · exact .inl (hsame ▸ hs)
  · apply Or.inl
    rw [hmore]
    exact getElem?_append_left_of_some hs
  · by_cases howner : s.stage.owner? n = some t
    · exact .inr ⟨t, prefersStream, rfl, ht, howner⟩
    · apply Or.inl
      show (w.runTask t prefersStream).agent.requests[n]? = some s
      rw [(w.runTask_ready ht prefersStream).1, requests_after]
      by_cases hown : t = .request n ∨ t = .handler n
      · rw [requests_of_not_owner hs hown howner]
        exact hs
      · obtain ⟨hr, hh⟩ := not_or.mp hown
        have heffect := effect_stepOf t prefersStream fun n s hs => (h.stands n s hs).awaited
        rw [heffect.others n hr hh]
        exact hs

/-- A request that was not there has just been taken. -/
theorem received_of_new {registry : Registry Handler} {w : World σ} (h : Serving registry w)
    {m : Move σ} {n : Nat} {s : Served} (hnone : w.agent.requests[n]? = none)
    (hs : (w.step m).agent.requests[n]? = some s) : s.stage = .received := by
  rcases requests_step w m with hsame | ⟨r, hmore⟩ | ⟨t, prefersStream, k, rfl, ht, -⟩
  · rw [hsame, hnone] at hs
    cases hs
  · rw [hmore, List.getElem?_append_right (List.getElem?_eq_none_iff.mp hnone)] at hs
    obtain ⟨-, rfl⟩ := List.getElem?_eq_some_iff.mp hs
    simp
  · have heffect := effect_stepOf t prefersStream fun n s hs => (h.stands n s hs).awaited
    have hstill : (w.runTask t prefersStream).agent.requests[n]? = none := by
      rw [(w.runTask_ready ht prefersStream).1, requests_after]
      exact (heffect.absent n hnone).1
    cases hstill.symm.trans hs

/-- **A request goes through its stages**, whatever happens. -/
theorem comes_step {registry : Registry Handler} {w : World σ} (h : Serving registry w) {n : Nat}
    {s : Served} (hs : w.agent.requests[n]? = some s) (m : Move σ) :
    ∃ s', (w.step m).agent.requests[n]? = some s' ∧ s'.request = s.request ∧
      Advances w.agent.shellTable w.agent.logTable
        (registry.lookup s.request.resource s.request.action) s.request s.stage s'.stage := by
  rw [← h.sameRegistry]
  rcases kept_or_run h hs m with hkept | ⟨t, prefersStream, rfl, ht, howner⟩
  · exact ⟨s, hkept, rfl, .stay _⟩
  · show Comes w.agent n s (w.runTask t prefersStream).agent
    unfold Comes
    rw [(w.runTask_ready ht prefersStream).1, requests_after]
    -- the step is taken without the task itself, which is nothing to the request
    cases hstage : s.stage <;> rw [hstage] at howner <;> cases howner <;> rw [← hstage]
    · exact comes_stepRequest (a := withoutTask w.agent (.request n)) hs
    · exact comes_stepHandler (a := withoutTask w.agent (.handler n)) hs
    · exact comes_stepHandler (a := withoutTask w.agent (.handler n)) hs
    · exact comes_stepRequest (a := withoutTask w.agent (.request n)) hs

/-! ### What is kept until the answer is sent -/

/-- Whatever is replied, the program comes to nothing but what `P` allows. -/
def ProgramEnds (P : Response → Prop) : Program Response → Prop
  | .done r => P r
  | .fail p => P (Outcome.broke p).response
  | .ask _ next => ∀ reply, ProgramEnds P (next reply)

theorem ProgramEnds.reaches {P : Response → Prop} {p q : Program Response}
    (hp : ProgramEnds P p) (h : p.Reaches q) : ProgramEnds P q := by
  induction h with
  | refl => exact hp
  | reply _ r ih => exact ih r

theorem ProgramEnds.response {P : Response → Prop} {p : Program Response} (hp : ProgramEnds P p)
    {o : Outcome} (h : p.ComesTo o) : P o.response := by
  have hleaf := hp.reaches h
  cases o with
  | returned r => exact hleaf
  | broke panic => exact hleaf

/-- A request at this stage can be answered only as `P` allows. -/
def StageEnds (P : Response → Prop) : Stage → Prop
  | .received => False
  | .running rest => ProgramEnds P rest
  | .delivering _ _ rest => ∀ taken, ProgramEnds P (rest taken)
  | .finished answer => P answer
  | .answered answer => P answer

theorem stageEnds_advances {shells : SessionTable ShellNumber} {logs : SessionTable Nat}
    {handler? : Option Handler} {r : Request} {P : Response → Prop} {stage stage' : Stage}
    (hstep : Advances shells logs handler? r stage stage') (h : StageEnds P stage) :
    StageEnds P stage' := by
  cases hstep with
  | stay => exact h
  | refuse => exact h.elim
  | route => exact h.elim
  | reply act next reply => exact h reply
  | waitSize => exact h
  | waitInput => exact h
  | resume shell parcel rest taken => exact h taken
  | conclude => exact h
  | fail => exact h
  | send => exact h

end ClusterAgent.Agent
