/-
  ClusterAgent/Proofs/Agent/Input.lean
  ====================================
  **What is typed into a shell.**

  Whatever requests, bridges, remote sides and the clock do in between: what a shell has
  been given to read is what it accepted, in the order in which it accepted it, up to some
  byte; the rest is in its inbox.  Terminal sizes come the same way in a queue of their
  own.  The two queues are read by one bridge, which begins no message while a size waits;
  so a size that was accepted before some input is applied before any byte of that input
  is written (`Accounts.order`).

  With the story of each request, `shell_input_arrives_in_order` puts this together.
-/
import ClusterAgent.Proofs.Agent.Calls

namespace ClusterAgent.Agent

open Cluster (TerminalSize)
open Handler (ShellNumber)

variable {σ : Type}

/-! ### The accounts of a shell -/

/-- What a shell has accepted is what it has passed on and what is in its inbox. -/
structure Accounts (n : ShellNumber) (s : Shell) (log : List Event) : Prop where
  bytes : typed n log ++ s.inbox.writing ++ s.inbox.inputs.flatten =
    (acceptedInputs n log).flatten
  sizes : applied n log ++ s.inbox.sizes = acceptedSizes n log
  pipe : s.terminal.input.waiting <:+ typed n log
  offered : s.terminal.sizes <+: applied n log
  offeredAll : s.terminal.takesSizes = true → s.terminal.sizes = applied n log
  /-- Once a message has been begun that was accepted after some point, all sizes that were accepted
      before that point have been applied. -/
  order : ∀ past, past <+: log →
    (acceptedInputs n past).flatten.length < (typed n log).length + s.inbox.writing.length →
    acceptedSizes n past <+: applied n log

variable {n : ShellNumber} {s s' : Shell} {log : List Event}

/-- What does not concern a shell tells nothing of it. -/
theorem unheard (h : ∀ x ∈ log, x.shell? ≠ some n) :
    acceptedInputs n log = [] ∧ acceptedSizes n log = [] ∧ typed n log = [] ∧
      applied n log = [] := by
  refine ⟨?_, ?_, ?_, ?_⟩
  all_goals
    refine List.flatMap_eq_nil_iff.mpr ?_
    intro x hx
    obtain ⟨hinput, hsize, htyped, happlied⟩ := Event.silent (h x hx)
    assumption

/-- A shell that has just been started has accepted nothing. -/
theorem accounts_new (hinbox : s.inbox = Session.Inbox.empty)
    (hterminal : s.terminal = Session.Terminal.fresh) (h : ∀ x ∈ log, x.shell? ≠ some n) :
    Accounts n s log := by
  obtain ⟨hinputs, hsizes, htyped, happlied⟩ := unheard h
  constructor
  · rw [htyped, hinputs, hinbox]
    rfl
  · rw [happlied, hsizes, hinbox]
    rfl
  · rw [hterminal]
    exact List.nil_suffix
  · rw [hterminal]
    exact List.nil_prefix
  · intro _
    rw [hterminal, happlied]
    rfl
  · intro past hpast _
    rw [(unheard fun x hx => h x (hpast.subset hx)).2.1]
    exact List.nil_prefix

/-- An event that does not concern a shell changes none of its accounts. -/
theorem told_silent {e : Option Event} (hsilent : ∀ x, e = some x → x.shell? ≠ some n)
    (log : List Event) :
    acceptedInputs n (log ++ e.toList) = acceptedInputs n log ∧
      acceptedSizes n (log ++ e.toList) = acceptedSizes n log ∧
      typed n (log ++ e.toList) = typed n log ∧ applied n (log ++ e.toList) = applied n log := by
  cases e with
  | none => simp
  | some x =>
    obtain ⟨hinput, hsize, htyped, happlied⟩ := Event.silent (hsilent x rfl)
    simp [acceptedInputs, acceptedSizes, typed, applied, hinput, hsize, htyped, happlied]

/-- A point of a chronicle with one event more is a point of the chronicle, or its end. -/
theorem prefix_toList {past : List Event} {e : Option Event} (h : past <+: log ++ e.toList) :
    past <+: log ∨ past = log ++ e.toList := by
  cases e with
  | none => exact .inl (by simpa using h)
  | some x => exact (List.prefix_concat_iff.mp h).symm

/-- At the end of the chronicle nothing has been begun that is accepted later. -/
theorem not_begun_at_end {inputs sizes : List (List UInt8)} {written writing : List UInt8}
    (hbytes : written ++ writing ++ sizes.flatten = inputs.flatten) :
    ¬ inputs.flatten.length < written.length + writing.length := by
  have hlength := congrArg List.length hbytes
  simp only [List.length_append] at hlength
  omega

theorem Accounts.beside {e : Option Event} (h : Accounts n s log)
    (hsilent : ∀ x, e = some x → x.shell? ≠ some n) (hinbox : s'.inbox = s.inbox)
    (hwaiting : s'.terminal.input.waiting <:+ s.terminal.input.waiting)
    (hsizes : s'.terminal.sizes = s.terminal.sizes)
    (htakes : s'.terminal.takesSizes = true → s.terminal.takesSizes = true) :
    Accounts n s' (log ++ e.toList) := by
  obtain ⟨hinputs, hsize, htyped, happlied⟩ := told_silent hsilent log
  constructor
  · rw [htyped, hinbox, hinputs]
    exact h.bytes
  · rw [happlied, hinbox, hsize]
    exact h.sizes
  · rw [htyped]
    exact hwaiting.trans h.pipe
  · rw [hsizes, happlied]
    exact h.offered
  · intro htrue
    rw [hsizes, happlied]
    exact h.offeredAll (htakes htrue)
  · intro past hpast hbegun
    rw [htyped, hinbox] at hbegun
    rw [happlied]
    rcases prefix_toList hpast with hpast | rfl
    · exact h.order past hpast hbegun
    · rw [hinputs] at hbegun
      exact absurd hbegun (not_begun_at_end h.bytes)

theorem Accounts.takes (h : Accounts n s log) (r : Nat) (parcel : Parcel)
    (hinbox : s'.inbox = (s.take parcel).inbox) (hterminal : s'.terminal = s.terminal) :
    Accounts n s' (log ++ [.accepted r n parcel]) := by
  have htyped : typed n (log ++ [.accepted r n parcel]) = typed n log := by
    simp [typed, Event.typedBy]
  have happlied : applied n (log ++ [.accepted r n parcel]) = applied n log := by
    simp [applied, Event.appliedBy]
  have hwriting : s'.inbox.writing = s.inbox.writing := by
    rw [hinbox]
    cases parcel <;> rfl
  have hbytes : typed n (log ++ [.accepted r n parcel]) ++ s'.inbox.writing ++
      s'.inbox.inputs.flatten = (acceptedInputs n (log ++ [.accepted r n parcel])).flatten := by
    have hbefore := h.bytes
    rw [htyped, hwriting, hinbox]
    cases parcel with
    | size size => simpa [acceptedInputs, Event.inputTo, Shell.take] using hbefore
    | input bytes =>
      simp only [acceptedInputs, List.flatMap_append, List.flatMap_cons, List.flatMap_nil,
        Event.inputTo, if_true, Shell.take, List.flatten_append, List.flatten_cons,
        List.flatten_nil, List.append_nil] at hbefore ⊢
      rw [← hbefore, List.append_assoc _ _ bytes]
  constructor
  · exact hbytes
  · rw [happlied, hinbox]
    have hbefore := h.sizes
    cases parcel with
    | input bytes => simpa [acceptedSizes, Event.sizeTo, Shell.take] using hbefore
    | size size =>
      simp only [acceptedSizes, List.flatMap_append, List.flatMap_cons, List.flatMap_nil,
        Event.sizeTo, if_true, Shell.take, List.append_nil] at hbefore ⊢
      rw [← hbefore, List.append_assoc]
  · rw [htyped, hterminal]
    exact h.pipe
  · rw [happlied, hterminal]
    exact h.offered
  · rw [happlied, hterminal]
    exact h.offeredAll
  · intro past hpast hbegun
    rcases List.prefix_concat_iff.mp hpast with rfl | hpast
    · exact absurd hbegun (not_begun_at_end hbytes)
    · rw [htyped, hwriting] at hbegun
      rw [happlied]
      exact h.order past hpast hbegun

theorem acceptedSizes_mono {past : List Event} (h : past <+: log) :
    acceptedSizes n past <+: acceptedSizes n log := by
  obtain ⟨later, rfl⟩ := h
  rw [acceptedSizes, acceptedSizes, List.flatMap_append]
  exact List.prefix_append _ _

/-- The turn of a bridge moves what it takes from the inbox to the terminal. -/
theorem Accounts.turns {read : List (List UInt8)} (h : Accounts n s log)
    (hturn : Session.Shell.turn s.inbox s.terminal = .went s'.inbox s'.terminal read) :
    Accounts n s' (log ++ (s.turnEvent? n).toList) := by
  have hpasses := Session.Shell.passes_of_turn hturn
  have hevent : s.turnEvent? n = some (.turned n (Session.Shell.appliedIn s.inbox s'.inbox)
      (Session.Shell.typedIn s.terminal s'.terminal)) := by
    rw [Shell.turnEvent?, hturn]
  rw [hevent, Option.toList_some]
  generalize hsizes : Session.Shell.appliedIn s.inbox s'.inbox = sizes
  generalize hwritten : Session.Shell.typedIn s.terminal s'.terminal = bytes
  have htyped : typed n (log ++ [.turned n sizes bytes]) = typed n log ++ bytes := by
    simp [typed, Event.typedBy]
  have happlied : applied n (log ++ [.turned n sizes bytes]) = applied n log ++ sizes := by
    simp [applied, Event.appliedBy]
  have hinputs : acceptedInputs n (log ++ [.turned n sizes bytes]) = acceptedInputs n log := by
    simp [acceptedInputs, Event.inputTo]
  have haccepted : acceptedSizes n (log ++ [.turned n sizes bytes]) = acceptedSizes n log := by
    simp [acceptedSizes, Event.sizeTo]
  have hbytes : typed n log ++ bytes ++ s'.inbox.writing ++ s'.inbox.inputs.flatten =
      (acceptedInputs n log).flatten := by
    have hmoved := hpasses.bytes
    have hbefore := h.bytes
    rw [hwritten] at hmoved
    simp only [List.append_assoc] at hmoved hbefore ⊢
    rw [hmoved, hbefore]
  constructor
  · rw [htyped, hinputs]
    exact hbytes
  · rw [happlied, haccepted, List.append_assoc, ← hsizes, hpasses.sizes]
    exact h.sizes
  · obtain ⟨taken, htaken⟩ := h.pipe
    rw [htyped, hpasses.pipe, hwritten]
    exact ⟨taken, by rw [← htaken, List.append_assoc]⟩
  · rw [happlied, hpasses.offered, hsizes]
    split
    · rename_i htakes
      exact ⟨[], by rw [List.append_nil, h.offeredAll htakes]⟩
    · exact h.offered.trans (List.prefix_append _ _)
  · intro htakes
    rw [hpasses.takes] at htakes
    rw [happlied, hpasses.offered, hsizes, if_pos htakes, h.offeredAll htakes]
  · intro past hpast hbegun
    rw [htyped, List.length_append] at hbegun
    rw [happlied]
    rcases List.prefix_concat_iff.mp hpast with rfl | hpast
    · rw [hinputs] at hbegun
      exact absurd (by rw [List.length_append]; exact hbegun) (not_begun_at_end hbytes)
    · refine List.IsPrefix.trans ?_ (List.prefix_append _ sizes)
      rcases hpasses.begun with hnone | hsame
      · -- no size waits, so all that were accepted have been applied
        have hall := h.sizes
        rw [hnone, List.append_nil] at hall
        rw [hall]
        exact acceptedSizes_mono hpast
      · rw [hwritten] at hsame
        exact h.order past hpast (by omega)

theorem Accounts.step {e : Option Event} (h : Accounts n s log) (hfares : Fares n s s' e) :
    Accounts n s' (log ++ e.toList) := by
  cases hfares with
  | beside _ hsilent hinbox hwaiting hsizes htakes =>
    exact h.beside hsilent hinbox hwaiting hsizes htakes
  | takes r parcel hinbox hterminal => exact h.takes r parcel hinbox hterminal
  | turns read hturn => exact h.turns hturn

/-! ### Every run -/

/-- All shells have their accounts, and every input request has its story. -/
structure Bookkept (w : World σ) (log : List Event) : Prop where
  tended : Tended Handler.all w
  accounts : ∀ n s, w.agent.shells[n]? = some s → Accounts n s log
  unborn : ∀ n : ShellNumber, w.agent.shells[n]? = none → ∀ x ∈ log, x.shell? ≠ some n
  told : ∀ r s, w.agent.requests[r]? = some s → IsInput (sessionOf s.request.params) s.request →
    Told r (Handler.stdin s.request.params) (eventsOf r log) s.stage
  unheard : ∀ r : Nat, w.agent.requests[r]? = none → eventsOf r log = []
  apart : ∀ n sizes bytes, .turned n sizes bytes ∈ log → sizes = [] ∨ bytes = []

theorem bookkept_step {w : World σ} {log : List Event} (h : Bookkept w log) (m : Move σ) :
    Bookkept (w.step m) (log ++ (w.event? m).toList) := by
  have hpassed := passed_step w m
  have hserving := h.tended.serving
  -- whoever is not there has not been there before
  have hrequests : ∀ (r : Nat) (s : Served), w.agent.requests[r]? = some s →
      ∃ s', (w.step m).agent.requests[r]? = some s' ∧ s'.request = s.request := by
    intro r s hs
    obtain ⟨s', hs', hsame, -⟩ := comes_step hserving hs m
    exact ⟨s', hs', hsame⟩
  constructor
  · exact h.tended.step m
  · intro n s' hs'
    cases hs : w.agent.shells[n]? with
    | some s =>
      obtain ⟨t, ht, hfares⟩ := hpassed.old n s hs
      cases hs'.symm.trans ht
      exact (h.accounts n s hs).step hfares
    | none =>
      obtain ⟨hnew, hsilent⟩ := hpassed.new n hs
      obtain ⟨hinbox, hterminal⟩ := hnew s' hs'
      refine accounts_new hinbox hterminal ?_
      intro x hx
      rcases List.mem_append.mp hx with hx | hx
      · exact h.unborn n hs x hx
      · exact hsilent x (Option.mem_toList.mp hx)
  · intro n hnone x hx
    cases hs : w.agent.shells[n]? with
    | some s =>
      obtain ⟨t, ht, -⟩ := hpassed.old n s hs
      cases hnone.symm.trans ht
    | none =>
      rcases List.mem_append.mp hx with hx | hx
      · exact h.unborn n hs x hx
      · exact (hpassed.new n hs).2 x (Option.mem_toList.mp hx)
  · intro r s' hs' hinput
    rw [eventsOf_append]
    cases hs : w.agent.requests[r]? with
    | none =>
      rw [h.unheard r hs, eventsOf_absent hs, received_of_new hserving hs hs']
      rfl
    | some s =>
      obtain ⟨t, ht, hsame⟩ := hrequests r s hs
      cases hs'.symm.trans ht
      rw [hsame] at hinput ⊢
      obtain ⟨t, ht, htold⟩ :=
        told_step hserving hs (lookup_input hinput) (h.told r s hs hinput) m
      cases hs'.symm.trans ht
      exact htold
  · intro r hnone
    cases hs : w.agent.requests[r]? with
    | none => rw [eventsOf_append, h.unheard r hs, eventsOf_absent hs, List.append_nil]
    | some s =>
      obtain ⟨t, ht, -⟩ := hrequests r s hs
      cases hnone.symm.trans ht
  · intro n sizes bytes hturned
    rcases List.mem_append.mp hturned with hbefore | hnow
    · exact h.apart n sizes bytes hbefore
    · exact turned_apart (Option.mem_toList.mp hnow)

theorem bookkept_run (client : Cluster.Client σ) (cluster : σ) (capacity tail : Nat)
    (moves : List (Move σ)) :
    Bookkept ((World.start Handler.all client cluster capacity tail).run moves)
      ((World.start Handler.all client cluster capacity tail).chronicle moves) := by
  refine World.chronicle_induction (P := Bookkept) ?_ (fun _ _ m h => bookkept_step h m) moves
  constructor
  · exact tended_run client cluster capacity tail []
  · intro n s hs
    cases hs
  · intro n _ x hx
    cases hx
  · intro r s hs
    cases hs
  · intro r _
    rfl
  · intro n sizes bytes hturned
    cases hturned

/-! ### The order of arrival -/

/-- How input arrives at shells. -/
structure ArrivesInOrder (w : World σ) (log : List Event) : Prop where
  /-- What is written for the remote side is what was accepted, in order, up to some byte. -/
  typed_prefix : ∀ n, typed n log <+: (acceptedInputs n log).flatten
  /-- The rest is in the inbox. -/
  rest : ∀ n s, w.agent.shells[n]? = some s →
    typed n log ++ s.inbox.writing ++ s.inbox.inputs.flatten = (acceptedInputs n log).flatten
  /-- What the remote side has not taken is what was written last. -/
  pipe : ∀ n s, w.agent.shells[n]? = some s → s.terminal.input.waiting <:+ typed n log
  applied_prefix : ∀ n, applied n log <+: acceptedSizes n log
  sizes : ∀ n s, w.agent.shells[n]? = some s →
    applied n log ++ s.inbox.sizes = acceptedSizes n log
  /-- A terminal has the sizes that it was offered, up to when it stopped taking any. -/
  offered : ∀ n s, w.agent.shells[n]? = some s → s.terminal.sizes <+: applied n log ∧
    (s.terminal.takesSizes = true → s.terminal.sizes = applied n log)
  /-- A turn of a bridge applies a size or writes, and never does both. -/
  apart : ∀ n sizes bytes, .turned n sizes bytes ∈ log → sizes = [] ∨ bytes = []
  /-- When a byte of some input has been written, all sizes accepted before it are applied. -/
  order : ∀ (r : Nat) n bytes past later, log = past ++ .accepted r n (.input bytes) :: later →
    (acceptedInputs n past).flatten.length < (typed n log).length →
    acceptedSizes n past <+: applied n log
  /-- The size of a request is accepted before its input. -/
  sizeFirst : ∀ r s n bytes past later, w.agent.requests[r]? = some s →
    IsInput (sessionOf s.request.params) s.request →
    log = past ++ .accepted r n (.input bytes) :: later →
    bytes = inputOf s.request.params ∧ ∀ size, resizeOf s.request.params = some size →
      .accepted r n (.size size) ∈ past
  answers : ∀ r s answer, w.agent.requests[r]? = some s →
    IsInput (sessionOf s.request.params) s.request → s.stage = .answered answer →
    AnsweredInput s.request.params r (eventsOf r log) answer
  /-- A bridge that has nothing to do has passed everything on, or its pipe is full. -/
  settled : ∀ n s, w.agent.shells[n]? = some s → s.phase.isLive = true →
    Task.shell n ∉ w.agent.ready →
    typed n log = (acceptedInputs n log).flatten ∧ applied n log = acceptedSizes n log ∨
      s.inbox.writing ≠ [] ∧ s.terminal.input.isOpen = true ∧
        Session.Sink.room ≤ s.terminal.input.waiting.length

theorem Bookkept.settled {w : World σ} {log : List Event} (h : Bookkept w log) {n : ShellNumber}
    {s : Shell} (hs : w.agent.shells[n]? = some s) (hlive : s.phase.isLive = true)
    (hready : Task.shell n ∉ w.agent.ready) :
    typed n log = (acceptedInputs n log).flatten ∧ applied n log = acceptedSizes n log ∨
      s.inbox.writing ≠ [] ∧ s.terminal.input.isOpen = true ∧
        Session.Sink.room ≤ s.terminal.input.waiting.length := by
  have haccounts := h.accounts n s hs
  rcases (h.tended.shells.known n s hs).attended with hrests | hwaits
  · rcases hrests with hgone | ⟨-, hidle⟩
    · rw [hgone] at hlive
      cases hlive
    · have hdoes := Session.Shell.does_turn s.inbox s.terminal
      rw [hidle] at hdoes
      cases hdoes with
      | waits hwriting hopen hfull => exact .inr ⟨hwriting, hopen, hfull⟩
      | rests hwriting hsizes hread hinputs =>
        apply Or.inl
        have hbytes := haccounts.bytes
        have happlied := haccounts.sizes
        rw [hwriting, hinputs, List.flatten_nil, List.append_nil, List.append_nil] at hbytes
        rw [hsizes, List.append_nil] at happlied
        exact ⟨hbytes, happlied⟩
  · exact absurd hwaits hready

/-- **Input arrives in order.**  In every run of the agent, over any cluster and under any schedule,
    what is typed into a shell is what the shell accepted, byte for byte. -/
theorem shell_input_arrives_in_order (client : Cluster.Client σ) (cluster : σ)
    (capacity tail : Nat) (moves : List (Move σ)) :
    ArrivesInOrder ((World.start Handler.all client cluster capacity tail).run moves)
      ((World.start Handler.all client cluster capacity tail).chronicle moves) := by
  have h := bookkept_run client cluster capacity tail moves
  generalize (World.start Handler.all client cluster capacity tail).run moves = w at h ⊢
  generalize (World.start Handler.all client cluster capacity tail).chronicle moves = log at h ⊢
  constructor
  case typed_prefix =>
    intro n
    cases hs : w.agent.shells[n]? with
    | some s =>
      rw [← (h.accounts n s hs).bytes, List.append_assoc]
      exact List.prefix_append _ _
    | none =>
      rw [(ClusterAgent.Agent.unheard (h.unborn n hs)).2.2.1]
      exact List.nil_prefix
  case rest =>
    intro n s hs
    exact (h.accounts n s hs).bytes
  case pipe =>
    intro n s hs
    exact (h.accounts n s hs).pipe
  case applied_prefix =>
    intro n
    cases hs : w.agent.shells[n]? with
    | some s =>
      rw [← (h.accounts n s hs).sizes]
      exact List.prefix_append _ _
    | none =>
      rw [(ClusterAgent.Agent.unheard (h.unborn n hs)).2.2.2]
      exact List.nil_prefix
  case sizes =>
    intro n s hs
    exact (h.accounts n s hs).sizes
  case offered =>
    intro n s hs
    exact ⟨(h.accounts n s hs).offered, (h.accounts n s hs).offeredAll⟩
  case apart => exact h.apart
  case order =>
    intro r n bytes past later hlog hwritten
    have hpast : past <+: log := ⟨_, hlog.symm⟩
    cases hs : w.agent.shells[n]? with
    | some s =>
      have hbegun := Nat.lt_of_lt_of_le hwritten (Nat.le_add_right _ s.inbox.writing.length)
      exact (h.accounts n s hs).order past hpast hbegun
    | none =>
      rw [(ClusterAgent.Agent.unheard (h.unborn n hs)).2.2.1] at hwritten
      exact absurd hwritten (Nat.not_lt_zero _)
  case sizeFirst =>
    intro r s n bytes past later hs hinput hlog
    have htold := h.told r s hs hinput
    have hevents : eventsOf r log =
        eventsOf r past ++ .accepted r n (.input bytes) :: eventsOf r later := by
      rw [hlog, eventsOf_append]
      congr 1
      exact List.filter_cons_of_pos (decide_eq_true rfl)
    obtain ⟨hbytes, hsizes⟩ := htold.before_input hevents
    refine ⟨hbytes, ?_⟩
    intro size hresize
    exact List.mem_of_mem_filter (hsizes size hresize)
  case answers =>
    intro r s answer hs hinput hanswered
    have htold := h.told r s hs hinput
    rw [hanswered] at htold
    exact answered_input htold
  case settled =>
    intro n s hs hlive hready
    exact h.settled hs hlive hready

/-- Two bytes and a size for an open shell: the size is accepted first and applied first. -/
example :
    let frame := ("[\"pod\",\"stdin\",\"2\"," ++
      "\x7b\"session_id\":\"s\",\"input\":\"ab\",\"width\":80,\"height\":24\x7d]").toUTF8.toList
    let opened := (justOpened .exec).run [.run (.shell 0) false, .run (.shell 0) false]
    opened.chronicle ([.frame frame, .take, .run (.request 1) false] ++
      List.replicate 4 (.run (.handler 1) false) ++ List.replicate 2 (.run (.shell 0) false)) =
      [.found 1 "s" (some 0), .accepted 1 0 (.size ⟨24, 80⟩), .accepted 1 0 (.input [97, 98]),
        .turned 0 [⟨24, 80⟩] [], .turned 0 [] [97, 98]] := by decide +kernel

end ClusterAgent.Agent
