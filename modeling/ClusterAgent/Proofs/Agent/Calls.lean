/-
  ClusterAgent/Proofs/Agent/Calls.lean
  ====================================
  **The story of one call that brings input for a shell.**

  A handler stands somewhere in its program, and the chronicle has what it did on the way
  there: `Leads` ties the two together, for any handler.  Every move carries the tie on
  (`told_step`), so what a request has been told, handed over and been refused can be read
  off from where its handler stands.

  For input there are few places to stand (`Course`): the session is looked up, the size is
  handed over if there is one, then the input, and the first thing that fails is the
  answer.  `answered_input` lists the stories that an answer may have behind it.
-/
import ClusterAgent.Proofs.Agent.Addressing
import ClusterAgent.Proofs.Agent.Parcels

namespace ClusterAgent.Agent

open Cluster (TerminalSize)
open Handler (Act Outcome Program ShellNumber)

variable {σ : Type}

/-! ### The way of a program -/

/-- Whether an act does something else than looking up a shell or handing something to one. -/
def IsAside : Act → Prop
  | .findShell _ | .sendResize .. | .sendInput .. => False
  | _ => True

/-- The program that hands a parcel to a shell and goes on with whether it was taken. -/
def handing (n : ShellNumber) (parcel : Parcel) (next : Bool → Program Response) :
    Program Response :=
  match parcel with
  | .size size => .ask (.sendResize n size) next
  | .input bytes => .ask (.sendInput n bytes) next

def handed (r : Nat) (n : ShellNumber) (parcel : Parcel) (taken : Bool) : Event :=
  if taken then .accepted r n parcel else .refused r n parcel

/-- The events of request `r` by which its handler comes from its program to what is left of it. -/
inductive Leads (r : Nat) (program : Program Response) : List Event → Program Response → Prop where
  | start : Leads r program [] program
  | aside (events : List Event) (act : Act) (next : act.Reply → Program Response)
      (reply : act.Reply) (haside : IsAside act) (h : Leads r program events (.ask act next)) :
      Leads r program events (next reply)
  | finds (events : List Event) (id : String) (next : Option ShellNumber → Program Response)
      (found : Option ShellNumber) (h : Leads r program events (.ask (.findShell id) next)) :
      Leads r program (events ++ [.found r id found]) (next found)
  | hands (events : List Event) (n : ShellNumber) (parcel : Parcel)
      (next : Bool → Program Response) (taken : Bool)
      (h : Leads r program events (handing n parcel next)) :
      Leads r program (events ++ [handed r n parcel taken]) (next taken)

/-- What a request with this program has done when it has come to a stage. -/
def Told (r : Nat) (program : Program Response) (events : List Event) : Stage → Prop
  | .received => events = []
  | .running rest => Leads r program events rest
  | .delivering n parcel rest => Leads r program events (handing n parcel rest)
  | .finished answer | .answered answer =>
    ∃ o : Outcome, Leads r program events o.leaf ∧ o.response = answer

/-- Request `r` stands at a stage with this property. -/
def StandsAt (b : Agent σ) (r : Nat) (P : Stage → Prop) : Prop :=
  ∃ s, b.requests[r]? = some s ∧ P s.stage

theorem standsAt_setStage {a b c : Agent σ} {r : Nat} {s : Served} {P : Stage → Prop}
    (stage : Stage) (hs : a.requests[r]? = some s) (hb : b.requests = a.requests)
    (hc : c.requests = (b.setStage r stage).requests) (h : P stage) : StandsAt c r P := by
  refine ⟨{ s with stage }, ?_, h⟩
  rw [hc, requests_setStage b (hb ▸ hs), if_pos rfl]

theorem standsAt_same {a b : Agent σ} {r : Nat} {s : Served} {P : Stage → Prop}
    (hs : a.requests[r]? = some s) (hb : b.requests = a.requests) (h : P s.stage) :
    StandsAt b r P :=
  ⟨s, hb ▸ hs, h⟩

/-! ### The steps of a handler -/

variable {r : Nat} {program : Program Response} {events : List Event}

theorem told_hand {a : Agent σ} {s : Served} (hs : a.requests[r]? = some s) (n : ShellNumber)
    (p : Parcel) {next : Bool → Program Response}
    (h : Leads r program events (handing n p next)) :
    StandsAt (a.hand r n p next).agent r
      (Told r program (events ++ (a.offerEvent? r n p).toList)) := by
  unfold hand deliver offerEvent?
  cases hshell : a.shells[n]? with
  | none => exact standsAt_setStage _ hs rfl rfl (h.hands _ _ _ _ false)
  | some shell =>
    by_cases hlistens : shell.isListening
    · by_cases hroom : shell.hasRoom p
      · simp only [hlistens, Bool.not_true, Bool.false_eq_true, if_false, hroom, if_true]
        exact standsAt_setStage _ hs rfl rfl (h.hands _ _ _ _ true)
      · simp only [hlistens, Bool.not_true, Bool.false_eq_true, if_false, hroom]
        refine standsAt_setStage _ hs rfl rfl ?_
        rw [Option.toList_none, List.append_nil]
        exact h
    · simp only [hlistens, Bool.not_false, if_true]
      exact standsAt_setStage _ hs rfl rfl (h.hands _ _ _ _ false)

theorem told_ask {a : Agent σ} {s : Served} {rest : Program Response}
    (hs : a.requests[r]? = some s) (h : Leads r program events rest) :
    StandsAt (a.ask r rest).agent r
      (Told r program (events ++ (a.programEvent? r rest).toList)) := by
  cases rest with
  | done answer =>
    refine standsAt_setStage (.finished answer) hs rfl rfl ?_
    show Told r program (events ++ []) _
    rw [List.append_nil]
    exact ⟨.returned answer, h, rfl⟩
  | fail panic =>
    refine standsAt_setStage (.finished (Outcome.broke panic).response) hs rfl rfl ?_
    show Told r program (events ++ []) _
    rw [List.append_nil]
    exact ⟨.broke panic, h, rfl⟩
  | ask act next =>
    -- an act that is none of a shell's business has no event
    have haside : IsAside act → ∀ (b : Agent σ) (reply : act.Reply), b.requests = a.requests →
        StandsAt (b.continueWith r (next reply)).agent r
          (Told r program (events ++ (a.programEvent? r (.ask act next)).toList)) := by
      intro haside b reply hb
      refine standsAt_setStage (.running (next reply)) hs hb rfl ?_
      have hnone : a.programEvent? r (.ask act next) = none := by
        cases act <;> first | rfl | exact haside.elim
      rw [hnone, Option.toList_none, List.append_nil]
      exact h.aside _ act next reply haside
    cases act with
    | cluster call =>
      exact haside trivial { a with cluster := (a.client.call a.cluster call).2 } _ rfl
    | pause ms =>
      obtain ⟨s', hs', htold⟩ := haside trivial a () rfl
      exact ⟨s', hs', htold⟩
    | setGate isOpen => exact haside trivial { a with gate := ⟨isOpen⟩ } () rfl
    | openShell id target command size =>
      exact haside trivial (a.addShell id target command size) () rfl
    | findShell id => exact standsAt_setStage _ hs rfl rfl (h.finds _ id next _)
    | sendResize n size => exact told_hand hs n (.size size) h
    | sendInput n bytes => exact told_hand hs n (.input bytes) h
    | openLog id target => exact haside trivial (a.addLog id target) () rfl
    | cancelLog id =>
      simp only [ask]
      split
      · exact haside trivial (a.stopLog _) true rfl
      · exact haside trivial a false rfl

/-- A step of the handler takes its request further, by the event that the step has. -/
theorem told_stepHandler {a : Agent σ} {s : Served} (hs : a.requests[r]? = some s)
    (h : Told r program events s.stage) :
    StandsAt (a.stepHandler r).agent r
      (Told r program (events ++ (a.handlerEvent? r).toList)) := by
  cases hstage : s.stage with
  | received | finished | answered =>
    simp only [stepHandler, handlerEvent?, hs, Option.map_some, hstage]
    refine standsAt_same hs rfl ?_
    rw [Option.toList_none, List.append_nil]
    exact h
  | running rest =>
    rw [hstage] at h
    simp only [stepHandler, handlerEvent?, hs, Option.map_some, hstage]
    exact told_ask hs h
  | delivering n parcel rest =>
    rw [hstage] at h
    simp only [stepHandler, handlerEvent?, hs, Option.map_some, hstage]
    cases hshell : a.shells[n]? with
    | none => exact standsAt_setStage _ hs rfl rfl (h.hands _ _ _ _ false)
    | some shell =>
      by_cases hlistens : shell.isListening
      · by_cases hwaits : shell.waiting.any (·.1 == r)
        · simp only [hlistens, Bool.not_true, Bool.false_eq_true, if_false, hwaits, if_true]
          refine standsAt_same hs rfl ?_
          rw [Option.toList_none, List.append_nil, hstage]
          exact h
        · simp only [hlistens, Bool.not_true, Bool.false_eq_true, if_false, hwaits]
          exact standsAt_setStage _ hs rfl rfl (h.hands _ _ _ _ true)
      · simp only [hlistens, Bool.not_false, if_true]
        exact standsAt_setStage _ hs rfl rfl (h.hands _ _ _ _ false)

/-! ### Moves -/

/-- What request `r` has done. -/
def eventsOf (r : Nat) (log : List Event) : List Event :=
  log.filter (·.request? = some r)

theorem request?_offerEvent {a : Agent σ} {n : ShellNumber} {p : Parcel} {e : Event}
    (h : a.offerEvent? r n p = some e) : e.request? = some r := by
  unfold offerEvent? at h
  repeat' split at h
  all_goals cases h
  all_goals rfl

theorem request?_handlerEvent {a : Agent σ} {e : Event} (h : a.handlerEvent? r = some e) :
    e.request? = some r ∧ ∃ s, a.requests[r]? = some s := by
  cases hs : a.requests[r]? with
  | none =>
    rw [handlerEvent?, hs] at h
    cases h
  | some s =>
    refine ⟨?_, s, rfl⟩
    unfold handlerEvent? at h
    split at h
    · rename_i rest _
      unfold programEvent? at h
      split at h
      · cases h
        rfl
      · exact request?_offerEvent h
      · exact request?_offerEvent h
      · cases h
    · repeat' split at h
      all_goals cases h
      all_goals rfl
    · cases h

/-- Only a step of the handler of a request is an event of it. -/
theorem event_of_request {w : World σ} {m : Move σ} {e : Event} (he : w.event? m = some e)
    (hr : e.request? = some r) :
    (∃ prefersStream, m = .run (.handler r) prefersStream) ∧ Task.handler r ∈ w.agent.ready ∧
      ∃ s, w.agent.requests[r]? = some s := by
  cases m with
  | run t prefersStream =>
    simp only [World.event?] at he
    split at he
    · rename_i ht
      cases t with
      | handler n =>
        obtain ⟨hn, hs⟩ := request?_handlerEvent (a := w.agent) he
        obtain rfl : n = r := Option.some.inj (hn.symm.trans hr)
        exact ⟨⟨prefersStream, rfl⟩, ht, hs⟩
      | shell n =>
        simp only [event?, shellEvent?, Shell.turnEvent?] at he
        repeat' split at he
        all_goals cases he
        all_goals cases hr
      | request n => cases he
      | log n => cases he
    · cases he
  | _ => cases he

theorem eventsOf_append (r : Nat) (log log' : List Event) :
    eventsOf r (log ++ log') = eventsOf r log ++ eventsOf r log' :=
  List.filter_append ..

/-- A move that is no step of the handler has no event of its request. -/
theorem eventsOf_other {w : World σ} {m : Move σ}
    (h : ¬ ((∃ prefersStream, m = .run (.handler r) prefersStream) ∧
      Task.handler r ∈ w.agent.ready)) : eventsOf r (w.event? m).toList = [] := by
  rw [eventsOf, List.filter_eq_nil_iff]
  intro e he hr
  obtain ⟨hrun, hready, -⟩ := event_of_request (Option.mem_toList.mp he) (of_decide_eq_true hr)
  exact h ⟨hrun, hready⟩

theorem eventsOf_absent {w : World σ} {m : Move σ} (hnone : w.agent.requests[r]? = none) :
    eventsOf r (w.event? m).toList = [] := by
  rw [eventsOf, List.filter_eq_nil_iff]
  intro e he hr
  obtain ⟨-, -, s, hs⟩ := event_of_request (Option.mem_toList.mp he) (of_decide_eq_true hr)
  cases hnone.symm.trans hs

/-- **A move carries the story of a request on.** -/
theorem told_step {registry : Registry Handler} {w : World σ} (h : Serving registry w)
    {s : Served} {handler : Handler} (hs : w.agent.requests[r]? = some s)
    (hlookup : registry.lookup s.request.resource s.request.action = some handler)
    (htold : Told r (handler s.request.params) events s.stage) (m : Move σ) :
    StandsAt (w.step m).agent r
      (Told r (handler s.request.params) (events ++ eventsOf r (w.event? m).toList)) := by
  by_cases hown : (∃ prefersStream, m = .run (.handler r) prefersStream) ∧
      Task.handler r ∈ w.agent.ready
  · obtain ⟨⟨prefersStream, rfl⟩, hready⟩ := hown
    have hevents : eventsOf r (w.event? (.run (.handler r) prefersStream)).toList =
        (w.agent.handlerEvent? r).toList := by
      rw [World.event?, if_pos hready, event?, eventsOf, List.filter_eq_self]
      intro e he
      exact decide_eq_true (request?_handlerEvent (Option.mem_toList.mp he)).1
    rw [hevents]
    show StandsAt (w.runTask (.handler r) prefersStream).agent r _
    obtain ⟨s', hs', htold'⟩ :=
      told_stepHandler (a := w.agent.withoutTask (.handler r)) hs htold
    refine ⟨s', ?_, htold'⟩
    rw [(w.runTask_ready hready prefersStream).1, requests_after]
    exact hs'
  · rw [eventsOf_other hown, List.append_nil]
    rcases kept_or_run h hs m with hkept | ⟨t, prefersStream, rfl, ht, howner⟩
    · exact ⟨s, hkept, htold⟩
    · obtain ⟨s', hs', -, hadvances⟩ := comes_step h hs (.run t prefersStream)
      refine ⟨s', hs', ?_⟩
      rw [hlookup] at hadvances
      -- the task is the one that routes the request and sends the answer
      cases hstage : s.stage with
      | running rest =>
        rw [hstage] at howner
        cases howner
        exact absurd ⟨⟨prefersStream, rfl⟩, ht⟩ hown
      | delivering n parcel rest =>
        rw [hstage] at howner
        cases howner
        exact absurd ⟨⟨prefersStream, rfl⟩, ht⟩ hown
      | answered answer =>
        rw [hstage] at howner
        cases howner
      | received =>
        rw [hstage] at hadvances htold
        generalize s'.stage = stage' at hadvances ⊢
        cases hadvances with
        | stay => exact htold
        | refuse unknown => cases unknown
        | route _ known =>
          cases known
          cases htold
          exact .start
      | finished answer =>
        rw [hstage] at hadvances htold
        generalize s'.stage = stage' at hadvances ⊢
        cases hadvances with
        | stay => exact htold
        | send => exact htold

/-! ### Input for a shell -/

section Input

variable (params : Json)

def sessionOf : String := (Handler.StdinParams.schema.decodeLenient params).sessionId

def inputOf : List UInt8 :=
  (Handler.StdinParams.schema.decodeLenient params).input.toUTF8.toList

/-- The terminal size that comes with input, if both of its sides are positive. -/
def resizeOf : Option TerminalSize :=
  let p := Handler.StdinParams.schema.decodeLenient params
  if 0 < p.width ∧ 0 < p.height then some ⟨p.height, p.width⟩ else none

def closedAnswer : Response :=
  Response.error .paramsError (Handler.StdinFailure.closed (sessionOf params)).message

def missingAnswer : Response :=
  Response.error .paramsError Handler.StdinFailure.notFound.message

/-- The events of a call that handed over its size, if it has one. -/
def resized (r : Nat) (n : ShellNumber) : List Event :=
  (resizeOf params).toList.map fun size => .accepted r n (.size size)

/-- The program hands over the input and answers. -/
def Sends (n : ShellNumber) (program : Program Response) : Prop :=
  ∃ next : Bool → Program Response, program = .ask (.sendInput n (inputOf params)) next ∧
    next true = .done Response.ok ∧ next false = .done (closedAnswer params)

/-- The program hands over this size and goes on with the input, or answers. -/
def Resizes (n : ShellNumber) (size : TerminalSize) (program : Program Response) : Prop :=
  ∃ next : Bool → Program Response, program = .ask (.sendResize n size) next ∧
    Sends params n (next true) ∧ next false = .done (closedAnswer params)

def Looks (program : Program Response) : Prop :=
  ∃ next : Option ShellNumber → Program Response,
    program = .ask (.findShell (sessionOf params)) next ∧ next none = .done missingAnswer ∧
      (resizeOf params = none → ∀ n, Sends params n (next (some n))) ∧
      ∀ size, resizeOf params = some size → ∀ n, Resizes params n size (next (some n))

/-- The handler of input turns what becomes of the input into an answer. -/
theorem stdin_eq : ∃ respond : Except Handler.StdinFailure Unit → Response,
    Handler.stdin params =
      (Handler.writeStdin (sessionOf params) (inputOf params) (resizeOf params)).bind
        (fun result => .done (respond result)) ∧
      respond (.ok ()) = Response.ok ∧
      ∀ f, respond (.error f) = Response.error .paramsError f.message :=
  ⟨_, rfl, rfl, fun _ => rfl⟩

theorem looks_stdin : Looks params (Handler.stdin params) := by
  obtain ⟨respond, hprogram, hok, herror⟩ := stdin_eq params
  have hmissing := congrArg Program.done (herror .notFound)
  have hsent := congrArg Program.done hok
  have hclosed := congrArg Program.done (herror (.closed (sessionOf params)))
  rw [hprogram]
  refine ⟨_, rfl, hmissing, ?_, ?_⟩
  · intro hresize n
    rw [hresize]
    exact ⟨_, rfl, hsent, hclosed⟩
  · intro size hresize n
    rw [hresize]
    exact ⟨_, rfl, ⟨_, rfl, hsent, hclosed⟩, hclosed⟩

/-- The stories that an answer to input may have behind it. -/
inductive AnsweredInput (params : Json) (r : Nat) : List Event → Response → Prop where
  /-- No session has the identifier. -/
  | missing : AnsweredInput params r [.found r (sessionOf params) none] missingAnswer
  /-- The session took the size, if there was one, and then the input. -/
  | taken (n : ShellNumber) :
      AnsweredInput params r (.found r (sessionOf params) (some n) :: resized params r n ++
        [.accepted r n (.input (inputOf params))]) Response.ok
  /-- The session did not take the size any more. -/
  | sizeRefused (n : ShellNumber) (size : TerminalSize) (hresize : resizeOf params = some size) :
      AnsweredInput params r
        [.found r (sessionOf params) (some n), .refused r n (.size size)] (closedAnswer params)
  | inputRefused (n : ShellNumber) :
      AnsweredInput params r (.found r (sessionOf params) (some n) :: resized params r n ++
        [.refused r n (.input (inputOf params))]) (closedAnswer params)

/-- The places where the handler of input may stand, with what it has done on its way there. -/
inductive Course (r : Nat) : List Event → Program Response → Prop where
  | looks (program : Program Response) (h : Looks params program) : Course r [] program
  | resizes (n : ShellNumber) (size : TerminalSize) (program : Program Response)
      (hresize : resizeOf params = some size) (h : Resizes params n size program) :
      Course r [.found r (sessionOf params) (some n)] program
  | sends (n : ShellNumber) (program : Program Response) (h : Sends params n program) :
      Course r (.found r (sessionOf params) (some n) :: resized params r n) program
  | answers (events : List Event) (answer : Response) (h : AnsweredInput params r events answer) :
      Course r events (.done answer)

variable {params}

theorem Course.of_looks_none {program : Program Response} {n : ShellNumber}
    (hnone : resizeOf params = none) (h : Sends params n program) :
    Course params r [.found r (sessionOf params) (some n)] program := by
  have hcourse : Course params r _ program := .sends n program h
  rw [resized, hnone] at hcourse
  exact hcourse

/-- The handler of input stands at one of these places. -/
theorem course_of_leads {rest : Program Response}
    (h : Leads r (Handler.stdin params) events rest) : Course params r events rest := by
  induction h with
  | start => exact .looks _ (looks_stdin params)
  | aside events act next reply haside h ih =>
    -- at every place the handler is about to do something that concerns the shell
    generalize hq : Program.ask act next = q at ih
    cases ih with
    | looks _ h | resizes _ _ _ _ h | sends _ _ h =>
      obtain ⟨next', rfl, -⟩ := h
      cases hq
      exact haside.elim
    | answers => cases hq
  | finds events id next found h ih =>
    generalize hq : Program.ask (.findShell id) next = q at ih
    cases ih with
    | looks _ h =>
      obtain ⟨next', rfl, hmissing, hplain, hresizes⟩ := h
      cases hq
      cases found with
      | none =>
        rw [hmissing]
        exact .answers _ _ .missing
      | some n =>
        cases hresize : resizeOf params with
        | none => exact .of_looks_none hresize (hplain hresize n)
        | some size => exact .resizes n size _ hresize (hresizes size hresize n)
    | resizes _ _ _ _ h | sends _ _ h =>
      obtain ⟨next', rfl, -⟩ := h
      cases hq
    | answers => cases hq
  | hands events n parcel next taken h ih =>
    generalize hq : handing n parcel next = q at ih
    cases ih with
    | looks _ h =>
      obtain ⟨next', rfl, -⟩ := h
      cases parcel <;> cases hq
    | resizes _ size _ hresize h =>
      obtain ⟨next', rfl, hsends, hclosed⟩ := h
      cases parcel with
      | input bytes => cases hq
      | size _ =>
        cases hq
        cases taken with
        | true =>
          have hcourse := Course.sends (r := r) n _ hsends
          rw [resized, hresize] at hcourse
          exact hcourse
        | false =>
          rw [hclosed]
          exact .answers _ _ (.sizeRefused n size hresize)
    | sends _ _ h =>
      obtain ⟨next', rfl, hok, hclosed⟩ := h
      cases parcel with
      | size _ => cases hq
      | input bytes =>
        cases hq
        cases taken with
        | true =>
          rw [hok]
          exact .answers _ _ (.taken n)
        | false =>
          rw [hclosed]
          exact .answers _ _ (.inputRefused n)
    | answers => cases parcel <;> cases hq

theorem answered_input {answer : Response}
    (h : Told r (Handler.stdin params) events (.answered answer)) :
    AnsweredInput params r events answer := by
  obtain ⟨o, hleads, rfl⟩ := h
  have hcourse := course_of_leads hleads
  generalize hq : o.leaf = q at hcourse
  cases hcourse with
  | looks _ h | resizes _ _ _ _ h | sends _ _ h =>
    obtain ⟨next, rfl, -⟩ := h
    cases o <;> cases hq
  | answers _ _ h =>
    cases o <;> cases hq
    exact h

theorem input_not_mem_resized (n m : ShellNumber) (bytes : List UInt8) :
    Event.accepted r n (.input bytes) ∉
      Event.found r (sessionOf params) (some m) :: resized params r m := by
  intro hmem
  rcases List.mem_cons.mp hmem with heq | hmem
  · cases heq
  · obtain ⟨size, -, heq⟩ := List.mem_map.mp hmem
    cases heq

/-- An element that is not among the first ones is the last one. -/
theorem eq_of_append_singleton {α : Type} {front past later : List α} {x y : α} (hx : x ∉ front)
    (h : front ++ [y] = past ++ x :: later) : front = past ∧ y = x := by
  rcases List.eq_nil_or_concat later with rfl | ⟨rest, z, rfl⟩
  · obtain ⟨hfront, hlast⟩ := List.append_inj' h rfl
    exact ⟨hfront, (List.cons.inj hlast).1⟩
  · rw [List.concat_eq_append, ← List.cons_append, ← List.append_assoc] at h
    obtain ⟨rfl, -⟩ := List.append_inj' h rfl
    exact absurd (List.mem_append_right past List.mem_cons_self) hx

theorem AnsweredInput.before_input {answer : Response} (h : AnsweredInput params r events answer)
    {n : ShellNumber} {bytes : List UInt8} {past later : List Event}
    (hevents : events = past ++ .accepted r n (.input bytes) :: later) :
    bytes = inputOf params ∧ ∀ size, resizeOf params = some size →
      .accepted r n (.size size) ∈ past := by
  have hmem : Event.accepted r n (.input bytes) ∈ events := by
    rw [hevents]
    exact List.mem_append_right _ List.mem_cons_self
  cases h with
  | missing | sizeRefused => simp at hmem
  | inputRefused m =>
    obtain ⟨-, hlast⟩ := eq_of_append_singleton (input_not_mem_resized n m bytes) hevents
    cases hlast
  | taken m =>
    obtain ⟨rfl, hlast⟩ := eq_of_append_singleton (input_not_mem_resized n m bytes) hevents
    cases hlast
    refine ⟨rfl, ?_⟩
    intro size hresize
    rw [resized, hresize]
    exact List.mem_cons_of_mem _ (List.mem_singleton_self _)

theorem Course.before_input {rest : Program Response} (h : Course params r events rest)
    {n : ShellNumber} {bytes : List UInt8} {past later : List Event}
    (hevents : events = past ++ .accepted r n (.input bytes) :: later) :
    bytes = inputOf params ∧ ∀ size, resizeOf params = some size →
      .accepted r n (.size size) ∈ past := by
  have hmem : Event.accepted r n (.input bytes) ∈ events := by
    rw [hevents]
    exact List.mem_append_right _ List.mem_cons_self
  cases h with
  | looks => cases hmem
  | resizes => simp at hmem
  | sends m => exact absurd hmem (input_not_mem_resized n m bytes)
  | answers _ _ h => exact h.before_input hevents

/-- Input that a session took comes after everything else that the request did, and the size that
    came with it is part of that. -/
theorem Told.before_input {stage : Stage} (h : Told r (Handler.stdin params) events stage)
    {n : ShellNumber} {bytes : List UInt8} {past later : List Event}
    (hevents : events = past ++ .accepted r n (.input bytes) :: later) :
    bytes = inputOf params ∧ ∀ size, resizeOf params = some size →
      .accepted r n (.size size) ∈ past := by
  cases stage with
  | received =>
    cases h
    simp at hevents
  | running rest => exact (course_of_leads h).before_input hevents
  | delivering m parcel rest => exact (course_of_leads h).before_input hevents
  | finished answer | answered answer =>
    obtain ⟨o, hleads, -⟩ := h
    exact (course_of_leads hleads).before_input hevents

end Input

end ClusterAgent.Agent
