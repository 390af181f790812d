/-
  ClusterAgent/Proofs/Agent/Serving.lean
  ======================================
  **How a request is served, one step at a time.**

  Three things are said of a request at every stage:

    * its stage fits its own handler (`Sound`): what is left of the handler's program
      is a rest of that program, and an answer is what the program came to;
    * what its task has done so far is known from the stage (`history`);
    * it goes on by itself (`Awaited`): some task of it is ready or asleep, or it
      waits for room in a shell session that is there.

  A step of one of its tasks keeps all three (`serves_stepRequest`, `serves_stepHandler`).
-/
import ClusterAgent.Proofs.Agent.Frame
import ClusterAgent.Proofs.Handler.Outcome

namespace ClusterAgent.Agent

open Handler (Act Outcome Program ShellNumber)

variable {σ : Type}

/-! ### Stages -/

/-- The right answer to a request with that handler. -/
def IsAnswer (handler? : Option Handler) (r : Request) (answer : Response) : Prop :=
  match handler? with
  | none => answer = notFound r
  | some handler => ∃ o, (handler r.params).ComesTo o ∧ answer = o.response

def Sound (handler? : Option Handler) (r : Request) : Stage → Prop
  | .received => True
  | .running rest => ∃ handler, handler? = some handler ∧ (handler r.params).Reaches rest
  | .delivering _ _ rest =>
    ∃ handler, handler? = some handler ∧ ∀ taken, (handler r.params).Reaches (rest taken)
  | .finished answer => handler?.isSome ∧ IsAnswer handler? r answer
  | .answered answer => IsAnswer handler? r answer

/-- What the task of a request has done when the request has come that far. -/
def history (handler? : Option Handler) (r : Request) : Stage → List Deed
  | .received => []
  | .running _ | .delivering .. | .finished _ => [.call]
  | .answered answer =>
    (if handler?.isSome then [.call] else []) ++ [.queue (Envelope.response r.requestId answer)]

/-- The task that takes a request further from a stage. -/
def Stage.owner? (n : Nat) : Stage → Option Task
  | .received | .finished _ => some (.request n)
  | .running _ | .delivering .. => some (.handler n)
  | .answered _ => none

/-- A request at a stage goes on by itself. -/
def Awaited (a : Agent σ) (n : Nat) : Stage → Prop
  | .received | .finished _ => Task.request n ∈ a.ready
  | .running _ => Task.handler n ∈ a.ready ∨ ∃ d, (d, Task.handler n) ∈ a.timers
  | .delivering shell _ _ => Task.handler n ∈ a.ready ∨ a.WaitsAt n shell
  | .answered _ => True

theorem Awaited.keep {a b : Agent σ} {n : Nat} {stage : Stage} (h : Awaited a n stage)
    (hk : Keeps a b) : Awaited b n stage := by
  cases stage with
  | received => exact hk.ready _ h
  | finished => exact hk.ready _ h
  | answered => trivial
  | running =>
    rcases h with h | ⟨d, h⟩
    · exact Or.inl (hk.ready _ h)
    · rcases hk.timers _ h with h | h
      · exact Or.inr ⟨d, h⟩
      · exact Or.inl h
  | delivering =>
    rcases h with h | h
    · exact Or.inl (hk.ready _ h)
    · exact (hk.waiting _ _ h).symm

/-- Taking a task of somebody else out of the ready tasks does no harm. -/
theorem Awaited.erase {a : Agent σ} {n : Nat} {stage : Stage} {t : Task}
    (h : Awaited a n stage) (ht : stage.owner? n ≠ some t) :
    Awaited { a with ready := a.ready.erase t } n stage := by
  have hne : ∀ u, stage.owner? n = some u → u ∈ a.ready → u ∈ a.ready.erase t := by
    intro u hu hmem
    refine (List.mem_erase_of_ne ?_).mpr hmem
    rintro rfl
    exact ht hu
  cases stage with
  | received => exact hne _ rfl h
  | finished => exact hne _ rfl h
  | answered => trivial
  | running => exact h.imp_left (hne _ rfl)
  | delivering => exact h.imp_left (hne _ rfl)

/-! ### A step for a request -/

theorem requests_setStage (a : Agent σ) {n : Nat} {s : Served} (hs : a.requests[n]? = some s)
    (stage : Stage) (m : Nat) :
    (a.setStage n stage).requests[m]? =
      if n = m then some { s with stage } else a.requests[m]? := by
  unfold setStage
  by_cases h : n = m
  · subst h
    simp [hs]
  · simp [h]

/-- What a step `p` of a task `t` from `a` makes of request `n`: it takes it from `s` to `s'` and
    leaves the others alone. -/
structure Serves (a : Agent σ) (t : Task) (n : Nat) (s s' : Served) (p : Progress σ) : Prop where
  registry : p.agent.registry = a.registry
  outbound : p.agent.outbound = a.outbound
  requests : ∀ m, p.agent.requests[m]? = if n = m then some s' else a.requests[m]?
  request : s'.request = s.request
  keeps : Keeps a p.agent
  sound : let handler? := a.registry.lookup s.request.resource s.request.action
    Sound handler? s.request s.stage →
      Sound handler? s.request s'.stage ∧
        history handler? s.request s'.stage = history handler? s.request s.stage ++ p.deeds
  awaited : Awaited (p.after t) n s'.stage

theorem serves_nothing {a : Agent σ} {t : Task} {n : Nat} {s : Served}
    (hs : a.requests[n]? = some s) (hw : Awaited a n s.stage) :
    Serves a t n s s (a.rests []) where
  registry := rfl
  outbound := rfl
  requests m := by
    by_cases h : n = m
    · subst h
      simp [rests, hs]
    · simp [rests, h]
  request := rfl
  keeps := Keeps.refl a
  sound h := ⟨h, (List.append_nil _).symm⟩
  awaited := hw.keep (keeps_after (a.rests []) t)

/-- A step that takes a request to another stage, between changes that leave requests alone. -/
theorem serves_setStage {a b : Agent σ} {t : Task} {n : Nat} {s : Served} {stage : Stage}
    {p : Progress σ} (hs : a.requests[n]? = some s) (hb : Undisturbed a b)
    (hp : Undisturbed (b.setStage n stage) p.agent)
    (sound : let handler? := a.registry.lookup s.request.resource s.request.action
      Sound handler? s.request s.stage → Sound handler? s.request stage ∧
        history handler? s.request stage = history handler? s.request s.stage ++ p.deeds)
    (awaited : Awaited (p.after t) n stage) : Serves a t n s { s with stage } p where
  registry := hp.registry.trans hb.registry
  outbound := hp.outbound.trans hb.outbound
  requests m := by
    have hs' : b.requests[n]? = some s := by rw [hb.requests]; exact hs
    rw [hp.requests, requests_setStage b hs', hb.requests]
  request := rfl
  keeps := hb.keeps.trans ((keeps_setStage b n stage).trans hp.keeps)
  sound := sound
  awaited := awaited

/-- A handler goes on with the rest of its program. -/
theorem serves_continueWith {a b : Agent σ} {n : Nat} {s : Served} {rest : Program Response}
    (hs : a.requests[n]? = some s) (hb : Undisturbed a b)
    (sound : ∀ handler?, Sound handler? s.request s.stage →
      Sound handler? s.request (.running rest) ∧ history handler? s.request s.stage = [.call]) :
    Serves a (.handler n) n s { s with stage := .running rest } (b.continueWith n rest) := by
  refine serves_setStage hs hb (Undisturbed.refl _) ?_ ?_
  · intro handler? h
    obtain ⟨hrest, hhist⟩ := sound _ h
    refine ⟨hrest, ?_⟩
    rw [hhist]
    rfl
  · exact Or.inl List.mem_cons_self

/-- A parcel that was taken changes nothing but the shell session that took it. -/
theorem undisturbed_give (a : Agent σ) (shell : ShellNumber) (f : Shell → Shell)
    (hlistens : ∀ s : Shell, (f s).isListening = s.isListening)
    (hwaits : ∀ s : Shell, (f s).waiting = s.waiting) :
    Undisturbed a ((a.modifyShell shell f).wake (.shell shell)) := by
  refine ⟨rfl, rfl, rfl, Keeps.trans (keeps_modifyShell a shell f ?_ ?_) (keeps_wake _ _)⟩
  · intro s hs
    rw [hlistens]
    exact hs
  · intro s m hm
    rw [hwaits]
    exact hm

/-- The handler of a request waits for room in a session that listens. -/
theorem serves_wait {a : Agent σ} {n : Nat} {s : Served} {shell : ShellNumber} {parcel : Parcel}
    {session : Shell} {next : Bool → Program Response} (hs : a.requests[n]? = some s)
    (hshell : a.shells[shell]? = some session) (hlistens : session.isListening = true)
    (sound : ∀ taken handler?, Sound handler? s.request s.stage →
      Sound handler? s.request (.running (next taken)) ∧
        history handler? s.request s.stage = [.call]) :
    ∃ s', Serves a (.handler n) n s s'
      (((a.modifyShell shell fun s => { s with waiting := s.waiting ++ [(n, parcel)] }).setStage n
        (.delivering shell parcel next)).rests []) := by
  refine ⟨_, serves_setStage hs ?_ (Undisturbed.refl _) ?_ ?_⟩
  · refine ⟨rfl, rfl, rfl, keeps_modifyShell a shell _ (fun _ h => h) ?_⟩
    intro s m hm
    simp only [List.map_append, List.mem_append]
    exact Or.inl hm
  · intro handler? h
    obtain ⟨⟨handler, heq, -⟩, hhist⟩ := sound true _ h
    constructor
    · refine ⟨handler, heq, fun taken => ?_⟩
      obtain ⟨⟨handler', heq', hreach⟩, -⟩ := sound taken _ h
      cases heq.symm.trans heq'
      exact hreach
    · rw [hhist]
      rfl
  · apply Or.inr
    refine ⟨{ session with waiting := session.waiting ++ [(n, parcel)] }, ?_, hlistens, by simp⟩
    simp [rests, Progress.after, setStage, modifyShell, hshell]

/-- The handler of a request hands a parcel over or waits until it can. -/
theorem serves_hand {a : Agent σ} {n : Nat} {s : Served} (shell : ShellNumber) (parcel : Parcel)
    {next : Bool → Program Response} (hs : a.requests[n]? = some s)
    (sound : ∀ taken handler?, Sound handler? s.request s.stage →
      Sound handler? s.request (.running (next taken)) ∧
        history handler? s.request s.stage = [.call]) :
    ∃ s', Serves a (.handler n) n s s' (a.hand n shell parcel next) := by
  unfold hand deliver
  cases hshell : a.shells[shell]? with
  | none => exact ⟨_, serves_continueWith hs (Undisturbed.refl a) (sound false)⟩
  | some session =>
    by_cases hlistens : session.isListening
    · by_cases hroom : session.hasRoom parcel
      · simp only [hlistens, Bool.not_true, Bool.false_eq_true, if_false, hroom, if_true]
        refine ⟨_, serves_continueWith hs (undisturbed_give a shell _ ?_ ?_) (sound true)⟩
        all_goals
          intro s
          cases parcel <;> rfl
      · simp only [hlistens, Bool.not_true, Bool.false_eq_true, if_false, hroom]
        exact serves_wait hs hshell hlistens sound
    · simp only [hlistens, Bool.not_false, if_true]
      exact ⟨_, serves_continueWith hs (Undisturbed.refl a) (sound false)⟩

/-- The handler of a request is done: its response is what its program came to. -/
theorem serves_conclude {a : Agent σ} {n : Nat} {s : Served} {o : Outcome}
    (hs : a.requests[n]? = some s) (hstage : s.stage = .running o.leaf) :
    ∃ s', Serves a (.handler n) n s s' ((a.conclude n o.response).rests []) := by
  refine ⟨_, serves_setStage hs (Undisturbed.refl a) ⟨rfl, rfl, rfl, keeps_wake _ _⟩ ?_ ?_⟩
  · intro handler? h
    rw [hstage] at h ⊢
    obtain ⟨handler, heq, hreach⟩ := h
    refine ⟨⟨by simp [heq], ?_⟩, rfl⟩
    rw [heq]
    exact ⟨o, hreach, rfl⟩
  · simp [Awaited, rests, Progress.after, conclude, wake]

theorem serves_ask {a : Agent σ} {n : Nat} {s : Served} {rest : Program Response}
    (hs : a.requests[n]? = some s) (hstage : s.stage = .running rest) :
    ∃ s', Serves a (.handler n) n s s' (a.ask n rest) := by
  cases rest with
  | done r => exact serves_conclude (o := .returned r) hs hstage
  | fail p => exact serves_conclude (o := .broke p) hs hstage
  | ask act next =>
    -- whatever the reply to the question is, what is left is a rest of the program
    have hreply : ∀ reply handler?, Sound handler? s.request s.stage →
        Sound handler? s.request (.running (next reply)) ∧
          history handler? s.request s.stage = [.call] := by
      intro reply handler? h
      rw [hstage] at h ⊢
      obtain ⟨handler, heq, hreach⟩ := h
      exact ⟨⟨handler, heq, .reply hreach reply⟩, rfl⟩
    have hgo : ∀ b : Agent σ, Undisturbed a b → ∀ reply,
        ∃ s', Serves a (.handler n) n s s' (b.continueWith n (next reply)) :=
      fun b hb reply => ⟨_, serves_continueWith hs hb (hreply reply)⟩
    cases act with
    | cluster call =>
      exact hgo { a with cluster := (a.client.call a.cluster call).2 }
        ⟨rfl, rfl, rfl, Keeps.of_eq (fun _ h => h) rfl rfl⟩ (a.client.call a.cluster call).1
    | pause ms =>
      refine ⟨_, serves_setStage hs (Undisturbed.refl a) ⟨rfl, rfl, rfl, keeps_sleep _ _ ms⟩ ?_ ?_⟩
      · intro handler? h
        obtain ⟨hrest, hhist⟩ := hreply () handler? h
        refine ⟨hrest, ?_⟩
        rw [hhist]
        rfl
      · exact Or.inr ⟨a.now + ms, (mem_insertTimer _ _ _ _).mpr (Or.inl rfl)⟩
    | setGate isOpen =>
      exact hgo { a with gate := ⟨isOpen⟩ } ⟨rfl, rfl, rfl, Keeps.of_eq (fun _ h => h) rfl rfl⟩ ()
    | openShell id target command size =>
      exact hgo (a.addShell id target command size) ⟨rfl, rfl, rfl, keeps_addShell ..⟩ ()
    | findShell id => exact hgo a (Undisturbed.refl a) (a.shellTable.get? id)
    | sendResize shell size => exact serves_hand shell (.size size) hs hreply
    | sendInput shell bytes => exact serves_hand shell (.input bytes) hs hreply
    | openLog id target => exact hgo (a.addLog id target) ⟨rfl, rfl, rfl, keeps_addLog ..⟩ ()
    | cancelLog id =>
      simp only [ask]
      cases a.logTable.get? id with
      | none => exact hgo a (Undisturbed.refl a) false
      | some l =>
        exact hgo (a.stopLog l)
          ⟨rfl, rfl, rfl, (keeps_modifyLog a l _).trans (keeps_wake _ _)⟩ true

theorem serves_stepHandler {a : Agent σ} {n : Nat} {s : Served} (hs : a.requests[n]? = some s)
    (hw : s.stage.owner? n ≠ some (.handler n) → Awaited a n s.stage) :
    ∃ s', Serves a (.handler n) n s s' (a.stepHandler n) := by
  unfold stepHandler
  rw [hs, Option.map_some]
  cases hstage : s.stage with
  | received => exact ⟨s, serves_nothing hs (hw (by simp [hstage, Stage.owner?]))⟩
  | finished => exact ⟨s, serves_nothing hs (hw (by simp [hstage, Stage.owner?]))⟩
  | answered => exact ⟨s, serves_nothing hs (hw (by simp [hstage, Stage.owner?]))⟩
  | running rest =>
    exact serves_ask hs hstage
  | delivering shell parcel rest =>
    have sound : ∀ taken handler?, Sound handler? s.request s.stage →
        Sound handler? s.request (.running (rest taken)) ∧
          history handler? s.request s.stage = [.call] := by
      intro taken handler? h
      rw [hstage] at h ⊢
      obtain ⟨handler, heq, hreach⟩ := h
      exact ⟨⟨handler, heq, hreach taken⟩, rfl⟩
    dsimp only
    cases hshell : a.shells[shell]? with
    | none => exact ⟨_, serves_continueWith hs (Undisturbed.refl a) (sound false)⟩
    | some session =>
      by_cases hlistens : session.isListening
      · by_cases hwaits : session.waiting.any (·.1 == n)
        · -- it was woken before its turn came, and waits on
          simp only [hlistens, Bool.not_true, Bool.false_eq_true, if_false, hwaits, if_true]
          refine ⟨s, serves_nothing hs ?_⟩
          rw [hstage]
          refine Or.inr ⟨session, hshell, hlistens, ?_⟩
          obtain ⟨x, hx, hxn⟩ := List.any_eq_true.mp hwaits
          exact List.mem_map.mpr ⟨x, hx, beq_iff_eq.mp hxn⟩
        · simp only [hlistens, Bool.not_true, Bool.false_eq_true, if_false, hwaits]
          refine ⟨_, serves_continueWith hs (undisturbed_give a shell _ ?_ ?_) (sound true)⟩
          all_goals
            intro s
            cases parcel <;> rfl
      · simp only [hlistens, Bool.not_false, if_true]
        exact ⟨_, serves_continueWith hs (Undisturbed.refl a) (sound false)⟩

/-- A step that sends the answer to a request. -/
theorem serves_reply {a : Agent σ} {t : Task} {n : Nat} {s : Served} {answer : Response}
    (hs : a.requests[n]? = some s)
    (sound : let handler? := a.registry.lookup s.request.resource s.request.action
      Sound handler? s.request s.stage → IsAnswer handler? s.request answer ∧
        history handler? s.request s.stage = if handler?.isSome then [.call] else []) :
    ∃ s', Serves a t n s s' (a.reply n s.request answer) := by
  refine ⟨⟨s.request, .answered answer, some a.now⟩, rfl, rfl, ?_, rfl, ?_, ?_, trivial⟩
  · intro m
    have hlt := (List.getElem?_eq_some_iff.mp hs).1
    by_cases h : n = m
    · subst h
      simp [reply, rests, hlt]
    · simp [reply, rests, h]
  · exact Keeps.of_eq (fun _ h => h) rfl rfl
  · intro handler? h
    obtain ⟨hanswer, hhist⟩ := sound h
    refine ⟨hanswer, ?_⟩
    rw [hhist]
    rfl

/-- A step of the task that routes a request and sends its answer. -/
theorem serves_stepRequest {a : Agent σ} {n : Nat} {s : Served} (hs : a.requests[n]? = some s)
    (hw : s.stage.owner? n ≠ some (.request n) → Awaited a n s.stage) :
    ∃ s', Serves a (.request n) n s s' (a.stepRequest n) := by
  obtain ⟨r, stage, answeredAt⟩ := s
  unfold stepRequest
  rw [hs]
  cases stage with
  | running => exact ⟨_, serves_nothing hs (hw (by simp [Stage.owner?]))⟩
  | delivering => exact ⟨_, serves_nothing hs (hw (by simp [Stage.owner?]))⟩
  | answered => exact ⟨_, serves_nothing hs (hw (by simp [Stage.owner?]))⟩
  | finished answer =>
    refine serves_reply hs ?_
    intro handler? h
    obtain ⟨hsome, hanswer⟩ := h
    exact ⟨hanswer, by rw [if_pos hsome]; rfl⟩
  | received =>
    cases hlookup : a.registry.lookup r.resource r.action with
    | none =>
      simp only [hlookup]
      refine serves_reply hs ?_
      intro handler? _
      have hnone : handler? = none := hlookup
      rw [hnone]
      exact ⟨rfl, rfl⟩
    | some handler =>
      simp only [hlookup]
      refine ⟨_, serves_setStage hs (Undisturbed.refl a) ⟨rfl, rfl, rfl, keeps_wake _ _⟩ ?_ ?_⟩
      · intro handler? _
        exact ⟨⟨handler, hlookup, .refl _⟩, rfl⟩
      · exact Or.inl (by simp [rests, Progress.after, wake])

/-! ### A step of any task -/

/-- What a step `p` of a ready task `t` makes of the requests. -/
structure Effect (a : Agent σ) (t : Task) (p : Progress σ) : Prop where
  registry : p.agent.registry = a.registry
  outbound : p.agent.outbound = a.outbound
  keeps : Keeps { a with ready := a.ready.erase t } p.agent
  own : ∀ (n : Nat) (s : Served), t = .request n ∨ t = .handler n → a.requests[n]? = some s →
    ∃ s', Serves { a with ready := a.ready.erase t } t n s s' p
  others : ∀ n : Nat, t ≠ .request n → t ≠ .handler n → p.agent.requests[n]? = a.requests[n]?
  absent : ∀ n : Nat, a.requests[n]? = none →
    p.agent.requests[n]? = none ∧ (t = .request n → p.deeds = [])

theorem effect_of_undisturbed {a : Agent σ} {t : Task} {p : Progress σ}
    (h : Undisturbed { a with ready := a.ready.erase t } p.agent)
    (ht : ∀ n, t = .request n ∨ t = .handler n → a.requests[n]? = none)
    (hd : ∀ n, t = .request n → p.deeds = []) : Effect a t p where
  registry := h.registry
  outbound := h.outbound
  keeps := h.keeps
  own n s hn hs := by
    rw [ht n hn] at hs
    cases hs
  others n _ _ := by rw [h.requests]
  absent n hn := by
    rw [h.requests]
    exact ⟨hn, hd n⟩

theorem effect_of_serves {a : Agent σ} {t : Task} {n : Nat} {s s' : Served} {p : Progress σ}
    (hs : a.requests[n]? = some s) (ht : ∀ m, t = .request m ∨ t = .handler m ↔ m = n)
    (h : Serves { a with ready := a.ready.erase t } t n s s' p) : Effect a t p where
  registry := h.registry
  outbound := h.outbound
  keeps := h.keeps
  own m s₀ hm hs₀ := by
    obtain rfl := (ht m).mp hm
    cases hs.symm.trans hs₀
    exact ⟨s', h⟩
  others m hr hh := by
    have hne : n ≠ m := by
      rintro rfl
      rcases (ht n).mpr rfl with h | h
      · exact hr h
      · exact hh h
    rw [h.requests, if_neg hne]
  absent m hm := by
    have hne : n ≠ m := by
      rintro rfl
      cases hs.symm.trans hm
    rw [h.requests, if_neg hne]
    exact ⟨hm, fun heq => absurd ((ht m).mp (Or.inl heq)).symm hne⟩

/-- **Every step serves the request it belongs to and leaves the others alone**, as long as
    requests are awaited. -/
theorem effect_stepOf {a : Agent σ} (t : Task) (prefersStream : Bool)
    (awaited : ∀ n (s : Served), a.requests[n]? = some s → Awaited a n s.stage) :
    Effect a t (a.stepOf prefersStream t) := by
  cases t with
  | shell n => exact effect_of_undisturbed (undisturbed_stepShell _ n) (by simp) (by simp)
  | log n => exact effect_of_undisturbed (undisturbed_stepLog prefersStream _ n) (by simp) (by simp)
  | request n =>
    let b := { a with ready := a.ready.erase (.request n) }
    cases hs : a.requests[n]? with
    | none =>
      have hnone : b.stepRequest n = b.rests [] := by
        unfold stepRequest
        rw [show b.requests[n]? = none from hs]
      show Effect a (.request n) (b.stepRequest n)
      rw [hnone]
      exact effect_of_undisturbed (Undisturbed.refl b) (by simpa using hs) fun _ _ => rfl
    | some s =>
      obtain ⟨s', hserves⟩ := serves_stepRequest (a := b) hs fun ht => (awaited n s hs).erase ht
      exact effect_of_serves hs (by simp [eq_comm]) hserves
  | handler n =>
    let b := { a with ready := a.ready.erase (.handler n) }
    cases hs : a.requests[n]? with
    | none =>
      have hnone : b.stepHandler n = b.rests [] := by
        unfold stepHandler
        rw [show b.requests[n]? = none from hs]
        rfl
      show Effect a (.handler n) (b.stepHandler n)
      rw [hnone]
      exact effect_of_undisturbed (Undisturbed.refl b) (by simpa using hs) fun _ _ => rfl
    | some s =>
      obtain ⟨s', hserves⟩ := serves_stepHandler (a := b) hs fun ht => (awaited n s hs).erase ht
      exact effect_of_serves hs (by simp [eq_comm]) hserves

end ClusterAgent.Agent
