/-
  ClusterAgent/Proofs/Agent/Opening.lean
  ======================================
  **Every open that succeeds has a session of its own.**

  The handlers that open a shell or a log check their parameters, start a session and
  answer at once.  `Owners` pairs the requests that have come so far with the sessions
  that they have started; every move keeps such a pairing (`owners_step`), and a request
  that is answered with success is one of the paired.
-/
import ClusterAgent.Handler.All
import ClusterAgent.Proofs.Agent.Families
import ClusterAgent.Proofs.Agent.Stages

namespace ClusterAgent.Agent

open Handler (Act Program ShellNumber)

variable {σ : Type}

/-! ### The handlers that open -/

namespace Family

def action : Family → String
  | .shell => Action.exec.name
  | .log => Action.openLog.name

def handler : Family → Handler
  | .shell => Handler.exec
  | .log => Handler.openLog

/-- The identifier that the parameters of an open name. -/
def sessionId : Family → Json → String
  | .shell, params => (Handler.ExecParams.schema.decodeLenient params).sessionId
  | .log, params => (Handler.OpenLogParams.schema.decodeLenient params).sessionId

/-- What a handler asks for to start a session of the family. -/
def Starts : Family → String → Act → Prop
  | .shell, id, .openShell id' _ _ _ => id' = id
  | .log, id, .openLog id' _ => id' = id
  | _, _, _ => False

/-- The number of the next session of the family. -/
def next (a : Agent σ) : Family → Nat
  | .shell => a.shells.length
  | .log => a.logs.length

end Family

theorem lookup_opener (f : Family) : Handler.all.lookup "pod" f.action = some f.handler := by
  unfold Handler.all
  cases f <;>
    simp [Registry.lookup_register, Family.action, Family.handler, Action.name]

/-- An open is refused, or starts one session and answers. -/
def IsOpener (f : Family) (id : String) (program : Program Response) : Prop :=
  (∃ refusal, program = .done refusal ∧ refusal.isSuccess = false) ∨
    ∃ act, f.Starts id act ∧ program = .ask act fun _ => .done Response.ok

theorem not_success_of_checkSession {name ns session : String} {refusal : Response}
    (h : Handler.checkSession name ns session = some refusal) : refusal.isSuccess = false := by
  unfold Handler.checkSession at h
  repeat' split at h
  all_goals first
    | cases h; rfl
    | cases h

theorem isOpener_handler (f : Family) (params : Json) :
    IsOpener f (f.sessionId params) (f.handler params) := by
  cases f with
  | shell =>
    simp only [Family.handler, Family.sessionId, Handler.exec]
    split
    · rename_i refusal hcheck
      exact .inl ⟨refusal, rfl, not_success_of_checkSession hcheck⟩
    · exact .inr ⟨.openShell .., rfl, rfl⟩
  | log =>
    simp only [Family.handler, Family.sessionId, Handler.openLog]
    split
    · rename_i refusal hcheck
      exact .inl ⟨refusal, rfl, not_success_of_checkSession hcheck⟩
    · exact .inr ⟨.openLog .., rfl, rfl⟩

theorem not_success_of_done {f : Family} {params : Json} {answer : Response}
    (h : f.handler params = .done answer) : answer.isSuccess = false := by
  rcases isOpener_handler f params with ⟨refusal, hrefused, hnot⟩ | ⟨act, -, hask⟩
  · cases h.symm.trans hrefused
    exact hnot
  · cases h.symm.trans hask

theorem starts_of_ask {f : Family} {params : Json} {act : Act}
    {next : act.Reply → Program Response} (h : f.handler params = .ask act next) :
    f.Starts (f.sessionId params) act ∧ next = fun _ => .done Response.ok := by
  rcases isOpener_handler f params with ⟨refusal, hrefused, -⟩ | ⟨own, hstarts, hask⟩
  · cases h.symm.trans hrefused
  · cases h.symm.trans hask
    exact ⟨hstarts, rfl⟩

theorem handler_ne_fail (f : Family) (params : Json) (panic : Handler.Panic) :
    f.handler params ≠ .fail panic := by
  intro h
  rcases isOpener_handler f params with ⟨refusal, hrefused, -⟩ | ⟨own, -, hask⟩
  · cases h.symm.trans hrefused
  · cases h.symm.trans hask

/-! ### The start of a session -/

/-- The handler of a request takes the step at which its program stands. -/
theorem agent_ask {w : World σ} {n : Nat} {s : Served} {rest : Program Response}
    (hs : w.agent.requests[n]? = some s) (hstage : s.stage = .running rest)
    (hready : Task.handler n ∈ w.agent.ready) (prefersStream : Bool) :
    (w.step (.run (.handler n) prefersStream)).agent =
      ((w.agent.withoutTask (.handler n)).ask n rest).after (.handler n) := by
  have hstep : w.agent.stepOf prefersStream (.handler n) =
      (w.agent.withoutTask (.handler n)).ask n rest := by
    simp [stepOf, step, stepHandler, hs, hstage]
  rw [← hstep]
  exact (w.runTask_ready hready prefersStream).1

theorem session?_next (a : Agent σ) (f : Family) : a.session? f (f.next a) = none := by
  cases f <;> simp [session?, Family.next]

theorem session?_ask {a : Agent σ} {n : Nat} {f : Family} {id : String} {act : Act}
    (hstarts : f.Starts id act) (next : act.Reply → Program Response) (t : Task) :
    ((a.ask n (.ask act next)).after t).session? f (f.next a) = some (id, .starting) := by
  cases f with
  | shell =>
    cases act with
    | openShell id' target command size =>
      have hid : id' = id := hstarts
      simp [session?, shells_after, ask, continueWith, goes, setStage, addShell, wake, Family.next,
        hid]
    | _ => exact hstarts.elim
  | log =>
    cases act with
    | openLog id' target =>
      have hid : id' = id := hstarts
      simp [session?, logs_after, ask, continueWith, goes, setStage, addLog, wake, Family.next, hid]
    | _ => exact hstarts.elim

/-! ### Requests and their sessions -/

/-- The request is one to open a session of the family. -/
def Opens (f : Family) (r : Request) : Prop :=
  r.resource = "pod" ∧ r.action = f.action

/-- How far an open with this program has come, and whether it has a session. -/
def HasCome (program : Program Response) (own : Option Nat) : Stage → Prop
  | .received => True
  | .running rest => rest = program ∨ rest = .done Response.ok ∧ own.isSome
  | .delivering .. => False
  | .finished answer | .answered answer => program = .done answer ∨ own.isSome

theorem HasCome.mono {program : Program Response} {own own' : Option Nat} {stage : Stage}
    (h : HasCome program own stage) (hown : own.isSome → own'.isSome) :
    HasCome program own' stage := by
  cases stage with
  | received => trivial
  | running rest => exact h.imp_right (And.imp_right hown)
  | delivering => exact h
  | finished | answered => exact h.imp_right hown

/-- The opens and the sessions that they have started. -/
structure Owners (w : World σ) (own : Nat → Option Nat) : Prop where
  come : ∀ (n : Nat) (s : Served) (f : Family), w.agent.requests[n]? = some s →
    Opens f s.request → HasCome (f.handler s.request.params) (own n) s.stage
  session : ∀ (n : Nat) (s : Served) (f : Family) (k : Nat), w.agent.requests[n]? = some s →
    Opens f s.request → own n = some k →
    ∃ phase, w.agent.session? f k = some (f.sessionId s.request.params, phase)
  single : ∀ (n m : Nat) (s t : Served) (f : Family) (k : Nat),
    w.agent.requests[n]? = some s → w.agent.requests[m]? = some t → Opens f s.request →
    Opens f t.request → own n = some k → own m = some k → n = m
  unborn : ∀ n : Nat, w.agent.requests[n]? = none → own n = none

theorem family_eq {f g : Family} {r : Request} (hf : Opens f r) (hg : Opens g r) : f = g := by
  have haction : f.action = g.action := hf.2.symm.trans hg.2
  cases f <;> cases g <;> first | rfl | exact absurd haction (by decide)

/-- The move is the step in which an open starts its session. -/
structure IsStart (w : World σ) (m : Move σ) (n : Nat) (s : Served) (f : Family) (act : Act) :
    Prop where
  request : w.agent.requests[n]? = some s
  opens : Opens f s.request
  starts : f.Starts (f.sessionId s.request.params) act
  stage : s.stage = .running (.ask act fun _ => .done Response.ok)
  move : ∃ prefersStream, m = .run (.handler n) prefersStream
  ready : Task.handler n ∈ w.agent.ready

theorem IsStart.same {w : World σ} {m : Move σ} {n n' : Nat} {s s' : Served} {f f' : Family}
    {act act' : Act} (h : IsStart w m n s f act) (h' : IsStart w m n' s' f' act') : n = n' := by
  obtain ⟨prefersStream, hmove⟩ := h.move
  obtain ⟨prefersStream', hmove'⟩ := h'.move
  cases hmove.symm.trans hmove'
  rfl

theorem session?_start {w : World σ} {m : Move σ} {n : Nat} {s : Served} {f : Family} {act : Act}
    (h : IsStart w m n s f act) :
    (w.step m).agent.session? f (f.next w.agent) =
      some (f.sessionId s.request.params, .starting) := by
  obtain ⟨prefersStream, rfl⟩ := h.move
  rw [agent_ask h.request h.stage h.ready]
  cases f with
  | shell => exact session?_ask (f := .shell) h.starts _ _
  | log => exact session?_ask (f := .log) h.starts _ _

/-- An open comes further in a move, or stays; where it starts its session it has one. -/
theorem hasCome_step {w : World σ} (h : Tended Handler.all w) {m : Move σ} {n : Nat}
    {s s' : Served} {f : Family} {own : Option Nat} (hs : w.agent.requests[n]? = some s)
    (hs' : (w.step m).agent.requests[n]? = some s') (hopens : Opens f s.request)
    (hcome : HasCome (f.handler s.request.params) own s.stage)
    (hstart : ∀ act, IsStart w m n s f act → own.isSome) :
    HasCome (f.handler s.request.params) own s'.stage := by
  have hlookup : Handler.all.lookup s.request.resource s.request.action = some f.handler := by
    rw [hopens.1, hopens.2]
    exact lookup_opener f
  rcases kept_or_run h.serving hs m with hkept | ⟨t, prefersStream, rfl, ht, howner⟩
  · cases hkept.symm.trans hs'
    exact hcome
  · obtain ⟨s₁, hs₁, -, hadvances⟩ := comes_step h.serving hs (.run t prefersStream)
    cases hs'.symm.trans hs₁
    rw [hlookup] at hadvances
    generalize hstage : s.stage = stage at hadvances hcome howner
    generalize s'.stage = stage' at hadvances
    cases hadvances with
    | stay => exact hcome
    | refuse unknown => cases unknown
    | route handler known =>
      cases known
      exact Or.inl rfl
    | reply act next reply _ =>
      rcases hcome with hprogram | ⟨hdone, -⟩
      · obtain ⟨hstarts, rfl⟩ := starts_of_ask hprogram.symm
        cases howner
        exact Or.inr ⟨rfl, hstart act ⟨hs, hopens, hstarts, hstage, ⟨prefersStream, rfl⟩, ht⟩⟩
      · cases hdone
    | waitSize shell size next =>
      rcases hcome with hprogram | ⟨hdone, -⟩
      · cases f <;> exact (starts_of_ask hprogram.symm).1.elim
      · cases hdone
    | waitInput shell bytes next =>
      rcases hcome with hprogram | ⟨hdone, -⟩
      · cases f <;> exact (starts_of_ask hprogram.symm).1.elim
      · cases hdone
    | resume => exact hcome.elim
    | conclude answer =>
      rcases hcome with hprogram | ⟨-, hown⟩
      · exact Or.inl hprogram.symm
      · exact Or.inr hown
    | fail panic =>
      rcases hcome with hprogram | ⟨hdone, -⟩
      · exact absurd hprogram.symm (handler_ne_fail f _ panic)
      · cases hdone
    | send => exact hcome

/-- A pairing is carried on by one that pairs the open that starts its session, if any, with it. -/
theorem Owners.carry {w : World σ} {own own' : Nat → Option Nat} {m : Move σ}
    (howners : Owners w own) (h : Tended Handler.all w)
    (hmono : ∀ n, (own n).isSome → (own' n).isSome)
    (hstarted : ∀ n s f act, IsStart w m n s f act → (own' n).isSome)
    (hnew : ∀ n k, own' n = some k → own n = some k ∨
      ∃ s f act, IsStart w m n s f act ∧ k = f.next w.agent) : Owners (w.step m) own' := by
  -- Whoever is paired now is a request that was there before.
  have hbefore : ∀ (n : Nat) (s' : Served) (k : Nat), (w.step m).agent.requests[n]? = some s' →
      own' n = some k → ∃ s, w.agent.requests[n]? = some s ∧ s'.request = s.request := by
    intro n s' k hs' hown
    cases hs : w.agent.requests[n]? with
    | some s =>
      obtain ⟨s₁, hs₁, hrequest, -⟩ := comes_step h.serving hs m
      cases hs'.symm.trans hs₁
      exact ⟨s, rfl, hrequest⟩
    | none =>
      rcases hnew n k hown with hold | ⟨s, f, act, hstart, -⟩
      · cases (howners.unborn n hs).symm.trans hold
      · cases hs.symm.trans hstart.request
  constructor
  · intro n s' f hs' hopens
    cases hs : w.agent.requests[n]? with
    | none =>
      rw [received_of_new h.serving hs hs']
      trivial
    | some s =>
      obtain ⟨s₁, hs₁, hrequest, -⟩ := comes_step h.serving hs m
      cases hs'.symm.trans hs₁
      rw [hrequest] at hopens ⊢
      exact hasCome_step h hs hs' hopens ((howners.come n s f hs hopens).mono (hmono n))
        fun act hstart => hstarted n s f act hstart
  · intro n s' f k hs' hopens hown
    obtain ⟨s, hs, hrequest⟩ := hbefore n s' k hs' hown
    rw [hrequest] at hopens ⊢
    rcases hnew n k hown with hold | ⟨t, g, act, hstart, rfl⟩
    · obtain ⟨phase, hsession⟩ := howners.session n s f k hs hopens hold
      obtain ⟨phase', hsession', -⟩ := session?_step h m hsession
      exact ⟨phase', hsession'⟩
    · cases hs.symm.trans hstart.request
      cases family_eq hopens hstart.opens
      exact ⟨.starting, session?_start hstart⟩
  · intro n n' s' t' f k hs' ht' hopens hopens' hown hown'
    obtain ⟨s, hs, hrequest⟩ := hbefore n s' k hs' hown
    obtain ⟨t, ht, hrequest'⟩ := hbefore n' t' k ht' hown'
    rw [hrequest] at hopens
    rw [hrequest'] at hopens'
    -- A session that is only now started was nobody's before.
    have hfresh : ∀ (i : Nat) (r : Served), w.agent.requests[i]? = some r →
        Opens f r.request → own i ≠ some (f.next w.agent) := by
      intro i r hr hopens hi
      obtain ⟨phase, hsession⟩ := howners.session i r f _ hr hopens hi
      cases (session?_next w.agent f).symm.trans hsession
    rcases hnew n k hown with hold | ⟨s₁, g, act, hstart, rfl⟩
    · rcases hnew n' k hown' with hold' | ⟨t₁, g', act', hstart', rfl⟩
      · exact howners.single n n' s t f k hs ht hopens hopens' hold hold'
      · cases ht.symm.trans hstart'.request
        cases family_eq hopens' hstart'.opens
        exact absurd hold (hfresh n s hs hopens)
    · rcases hnew n' _ hown' with hold' | ⟨t₁, g', act', hstart', -⟩
      · cases hs.symm.trans hstart.request
        cases family_eq hopens hstart.opens
        exact absurd hold' (hfresh n' t ht hopens')
      · exact hstart.same hstart'
  · intro n hnone
    cases hown : own' n with
    | none => rfl
    | some k =>
      cases hs : w.agent.requests[n]? with
      | some s =>
        obtain ⟨s₁, hs₁, -⟩ := comes_step h.serving hs m
        cases hnone.symm.trans hs₁
      | none =>
        rcases hnew n k hown with hold | ⟨s, f, act, hstart, -⟩
        · cases (howners.unborn n hs).symm.trans hold
        · cases hs.symm.trans hstart.request

theorem owners_step {w : World σ} {own : Nat → Option Nat} (howners : Owners w own)
    (h : Tended Handler.all w) (m : Move σ) : ∃ own', Owners (w.step m) own' := by
  by_cases hstart : ∃ n s f act, IsStart w m n s f act
  · obtain ⟨n, s, f, act, hstart⟩ := hstart
    refine ⟨fun k => if k = n then some (f.next w.agent) else own k, howners.carry h ?_ ?_ ?_⟩
    · intro k hk
      split
      · rfl
      · exact hk
    · intro k t g act' hstart'
      rw [hstart'.same hstart, if_pos rfl]
      rfl
    · intro k i hk
      split at hk
      · rename_i heq
        subst heq
        exact .inr ⟨s, f, act, hstart, (Option.some.inj hk).symm⟩
      · exact .inl hk
  · refine ⟨own, howners.carry h (fun _ hk => hk) ?_ (fun _ _ hk => .inl hk)⟩
    intro k t g act hstart'
    exact absurd ⟨k, t, g, act, hstart'⟩ hstart

theorem owners_run (client : Cluster.Client σ) (cluster : σ) (capacity tail : Nat)
    (moves : List (Move σ)) :
    ∃ own, Owners ((World.start Handler.all client cluster capacity tail).run moves) own := by
  have hboth := World.run_induction
    (P := fun w => Tended Handler.all w ∧ ∃ own : Nat → Option Nat, Owners w own)
    (w := World.start Handler.all client cluster capacity tail) ?_ ?_ moves
  · exact hboth.2
  · refine ⟨tended_run client cluster capacity tail [], fun _ => none, ?_, ?_, ?_, ?_⟩
    · intro n s f hs
      cases hs
    · intro n s f k hs
      cases hs
    · intro n m s t f k hs
      cases hs
    · intro n _
      rfl
  · rintro w m ⟨h, own, howners⟩
    exact ⟨h.step m, owners_step howners h m⟩

/-- **An open that is answered with success has a session**, and no two have the same. -/
theorem started_of_success {w : World σ} {own : Nat → Option Nat} (howners : Owners w own)
    {n : Nat} {s : Served} {f : Family} {answer : Response} (hs : w.agent.requests[n]? = some s)
    (hopens : Opens f s.request) (hanswered : s.stage = .answered answer)
    (hsuccess : answer.isSuccess = true) :
    ∃ k phase, own n = some k ∧
      w.agent.session? f k = some (f.sessionId s.request.params, phase) := by
  have hcome := howners.come n s f hs hopens
  rw [hanswered] at hcome
  rcases hcome with hrefused | hown
  · rw [not_success_of_done hrefused] at hsuccess
    cases hsuccess
  · obtain ⟨k, hk⟩ := Option.isSome_iff_exists.mp hown
    obtain ⟨phase, hsession⟩ := howners.session n s f k hs hopens hk
    exact ⟨k, phase, hk, hsession⟩

end ClusterAgent.Agent
