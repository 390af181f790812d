/-
  ClusterAgent/Proofs/Agent/Parcels.lean
  ======================================
  **What is handed to shells, and what becomes of it.**

  A chronicle of a run says when a request looked a session up, which parcels the session
  took and which it refused, and what each turn of a bridge passed on to the terminal.
  What a turn passed on is read off from what it took out of the inbox and what it left in
  the pipe, so the chronicle is a record of the run and no part of it.

  `passed_step` is the account of one move: for each shell, the move puts a parcel into its
  inbox, or is a turn of its bridge, or leaves its inbox alone; and nobody but the remote
  side takes anything out of the pipe.
-/
import ClusterAgent.Proofs.Agent.BridgeStep
import ClusterAgent.Proofs.Session.Turns

namespace ClusterAgent.Agent

open Cluster (TerminalSize)
open Handler (Program ShellNumber)
open Session (Inbox Terminal)

variable {σ : Type}

/-! ### The chronicle -/

/-- Something that concerns the input of shells. -/
inductive Event where
  /-- A request looked a session up. -/
  | found (request : Nat) (id : String) (shell : Option ShellNumber)
  | accepted (request : Nat) (shell : ShellNumber) (parcel : Parcel)
  | refused (request : Nat) (shell : ShellNumber) (parcel : Parcel)
  /-- A turn of a bridge gave these sizes and these bytes to its terminal. -/
  | turned (shell : ShellNumber) (sizes : List TerminalSize) (bytes : List UInt8)
deriving DecidableEq, Repr

namespace Event

/-- The shell whose inbox or terminal is concerned. -/
def shell? : Event → Option ShellNumber
  | .found .. | .refused .. => none
  | .accepted _ n _ | .turned n _ _ => some n

/-- The request that is concerned. -/
def request? : Event → Option Nat
  | .found r _ _ | .accepted r _ _ | .refused r _ _ => some r
  | .turned .. => none

/-- The input that a shell accepts. -/
def inputTo (n : ShellNumber) : Event → List (List UInt8)
  | .accepted _ m (.input bytes) => if m = n then [bytes] else []
  | _ => []

def sizeTo (n : ShellNumber) : Event → List TerminalSize
  | .accepted _ m (.size size) => if m = n then [size] else []
  | _ => []

/-- The bytes that the bridge of a shell writes for the remote side. -/
def typedBy (n : ShellNumber) : Event → List UInt8
  | .turned m _ bytes => if m = n then bytes else []
  | _ => []

/-- The sizes that the bridge of a shell offers to the terminal. -/
def appliedBy (n : ShellNumber) : Event → List TerminalSize
  | .turned m sizes _ => if m = n then sizes else []
  | _ => []

/-- An event that does not concern a shell adds nothing to what is told of it. -/
theorem silent {e : Event} {n : ShellNumber} (h : e.shell? ≠ some n) :
    e.inputTo n = [] ∧ e.sizeTo n = [] ∧ e.typedBy n = [] ∧ e.appliedBy n = [] := by
  cases e with
  | found => exact ⟨rfl, rfl, rfl, rfl⟩
  | refused => exact ⟨rfl, rfl, rfl, rfl⟩
  | accepted r m parcel =>
    have hm : m ≠ n := fun heq => h (congrArg some heq)
    cases parcel <;> simp [inputTo, sizeTo, typedBy, appliedBy, hm]
  | turned m sizes bytes =>
    have hm : m ≠ n := fun heq => h (congrArg some heq)
    simp [inputTo, sizeTo, typedBy, appliedBy, hm]

end Event

def acceptedInputs (n : ShellNumber) (log : List Event) : List (List UInt8) :=
  log.flatMap (Event.inputTo n)

def acceptedSizes (n : ShellNumber) (log : List Event) : List TerminalSize :=
  log.flatMap (Event.sizeTo n)

def typed (n : ShellNumber) (log : List Event) : List UInt8 :=
  log.flatMap (Event.typedBy n)

def applied (n : ShellNumber) (log : List Event) : List TerminalSize :=
  log.flatMap (Event.appliedBy n)

/-- What comes of a parcel that a request hands over now. -/
def offerEvent? (a : Agent σ) (r : Nat) (n : ShellNumber) (p : Parcel) : Option Event :=
  match a.shells[n]? with
  | none => some (.refused r n p)
  | some s =>
    if !s.isListening then some (.refused r n p)
    else if s.hasRoom p then some (.accepted r n p)
    else none

/-- What comes of the next step of a program. -/
def programEvent? (a : Agent σ) (r : Nat) : Program Response → Option Event
  | .ask (.findShell id) _ => some (.found r id (a.shellTable.get? id))
  | .ask (.sendResize n size) _ => a.offerEvent? r n (.size size)
  | .ask (.sendInput n bytes) _ => a.offerEvent? r n (.input bytes)
  | _ => none

def handlerEvent? (a : Agent σ) (r : Nat) : Option Event :=
  match a.requests[r]?.map Served.stage with
  | some (.running rest) => a.programEvent? r rest
  | some (.delivering n parcel _) =>
    match a.shells[n]? with
    | none => some (.refused r n parcel)
    | some s =>
      if !s.isListening then some (.refused r n parcel)
      else if s.waiting.any (·.1 == r) then none
      else some (.accepted r n parcel)
  | _ => none

/-- The event of a turn, by what it took from the inbox and added to the pipe. -/
def Shell.turnEvent? (n : ShellNumber) (s : Shell) : Option Event :=
  match Session.Shell.turn s.inbox s.terminal with
  | .went inbox terminal _ =>
    some (.turned n (Session.Shell.appliedIn s.inbox inbox)
      (Session.Shell.typedIn s.terminal terminal))
  | .idle | .stopped _ => none

def shellEvent? (a : Agent σ) (n : ShellNumber) : Option Event :=
  match a.shells[n]? with
  | none => none
  | some s => if s.phase.isLive then s.turnEvent? n else none

/-- What a step of a task adds to the chronicle. -/
def event? (a : Agent σ) : Task → Option Event
  | .handler r => a.handlerEvent? r
  | .shell n => a.shellEvent? n
  | .request _ | .log _ => none

def World.event? (w : World σ) : Move σ → Option Event
  | .run t _ => if t ∈ w.agent.ready then w.agent.event? t else none
  | _ => none

/-- A turn of a bridge applies a size or writes, and never does both. -/
theorem turned_apart {w : World σ} {m : Move σ} {n : ShellNumber} {sizes : List TerminalSize}
    {bytes : List UInt8} (h : w.event? m = some (.turned n sizes bytes)) :
    sizes = [] ∨ bytes = [] := by
  cases m with
  | run t prefersStream =>
    simp only [World.event?] at h
    split at h
    · cases t with
      | shell k =>
        simp only [event?, shellEvent?, Shell.turnEvent?] at h
        split at h
        · cases h
        · split at h
          · split at h
            · rename_i hturn
              cases h
              exact (Session.Shell.passes_of_turn hturn).apart
            · cases h
            · cases h
          · cases h
      | handler r =>
        simp only [event?, handlerEvent?, programEvent?, offerEvent?] at h
        repeat' split at h
        all_goals cases h
      | request r => cases h
      | log k => cases h
    · cases h
  | _ => cases h

/-- What happened to the input of shells in a run, in order. -/
def World.chronicle (w : World σ) : List (Move σ) → List Event
  | [] => []
  | m :: rest => (w.event? m).toList ++ (w.step m).chronicle rest

/-- What holds at the start and is kept by every move, with what that adds to the chronicle, holds
    after every run. -/
theorem World.chronicle_induction {P : World σ → List Event → Prop} {w : World σ}
    (start : P w [])
    (keep : ∀ w log m, P w log → P (w.step m) (log ++ (w.event? m).toList))
    (moves : List (Move σ)) : P (w.run moves) (w.chronicle moves) := by
  suffices hfrom : ∀ log, P w log → P (w.run moves) (log ++ w.chronicle moves) from hfrom [] start
  clear start
  induction moves generalizing w with
  | nil =>
    intro log h
    rw [World.chronicle, List.append_nil]
    exact h
  | cons m rest ih =>
    intro log h
    rw [World.chronicle, ← List.append_assoc]
    exact ih (w := w.step m) _ (keep w log m h)

/-! ### What a move does to one shell -/

/-- What becomes of the inbox and the terminal of a shell, with the event that tells of it. -/
inductive Fares (n : ShellNumber) (s s' : Shell) : Option Event → Prop where
  /-- The inbox stays as it is; the remote side may take input and stop taking sizes. -/
  | beside (e : Option Event) (hsilent : ∀ x, e = some x → x.shell? ≠ some n)
      (hinbox : s'.inbox = s.inbox)
      (hwaiting : s'.terminal.input.waiting <:+ s.terminal.input.waiting)
      (hsizes : s'.terminal.sizes = s.terminal.sizes)
      (htakes : s'.terminal.takesSizes = true → s.terminal.takesSizes = true) :
      Fares n s s' e
  | takes (r : Nat) (parcel : Parcel) (hinbox : s'.inbox = (s.take parcel).inbox)
      (hterminal : s'.terminal = s.terminal) :
      Fares n s s' (some (.accepted r n parcel))
  | turns (read : List (List UInt8))
      (hturn : Session.Shell.turn s.inbox s.terminal = .went s'.inbox s'.terminal read) :
      Fares n s s' (s.turnEvent? n)

/-- What becomes of all shells, with the event that tells of it. -/
structure Passed (a b : Agent σ) (e : Option Event) : Prop where
  old : ∀ (n : ShellNumber) s, a.shells[n]? = some s →
    ∃ s', b.shells[n]? = some s' ∧ Fares n s s' e
  /-- A shell that is new has got nothing yet. -/
  new : ∀ n : ShellNumber, a.shells[n]? = none →
    (∀ s', b.shells[n]? = some s' → s'.inbox = Inbox.empty ∧ s'.terminal = Terminal.fresh) ∧
      ∀ x, e = some x → x.shell? ≠ some n

theorem Fares.same {n : ShellNumber} (s : Shell) {e : Option Event}
    (hsilent : ∀ x, e = some x → x.shell? ≠ some n) : Fares n s s e :=
  .beside e hsilent rfl (List.suffix_refl _) rfl id

theorem not_shell_none {n : ShellNumber} : ∀ x : Event, none = some x → x.shell? ≠ some n := by
  intro x hx
  cases hx

/-- An event that concerns no shell, where the shells stay as they are. -/
theorem passed_same {a b : Agent σ} {e : Option Event} (hshells : b.shells = a.shells)
    (hsilent : ∀ n x, e = some x → x.shell? ≠ some n) : Passed a b e where
  old n s hs := ⟨s, hshells ▸ hs, Fares.same s (hsilent n)⟩
  new n hnone := by
    refine ⟨?_, hsilent n⟩
    intro s' hs'
    rw [hshells, hnone] at hs'
    cases hs'

theorem passed_none {a b : Agent σ} (hshells : b.shells = a.shells) : Passed a b none :=
  passed_same hshells fun _ => not_shell_none

/-- One shell changes, and the event concerns no other. -/
theorem passed_modify {a b : Agent σ} {n : ShellNumber} {s : Shell} {f : Shell → Shell}
    {e : Option Event} (hs : a.shells[n]? = some s) (hshells : b.shells = a.shells.modify n f)
    (hfares : Fares n s (f s) e) (hsilent : ∀ m, m ≠ n → ∀ x, e = some x → x.shell? ≠ some m) :
    Passed a b e where
  old m t ht := by
    by_cases hm : m = n
    · subst hm
      cases ht.symm.trans hs
      exact ⟨f s, by simp [hshells, hs], hfares⟩
    · exact ⟨t, by simp [hshells, ht, Ne.symm hm], Fares.same t (hsilent m hm)⟩
  new m hnone := by
    constructor
    · intro s' hs'
      rw [hshells, List.getElem?_modify, hnone] at hs'
      cases hs'
    · apply hsilent m
      rintro rfl
      cases hnone.symm.trans hs

/-- A shell changes in what neither its inbox nor its terminal shows, or not at all. -/
theorem passed_modify_beside {a b : Agent σ} {n : ShellNumber} {f : Shell → Shell}
    (hshells : b.shells = a.shells.modify n f)
    (hinbox : ∀ s, (f s).inbox = s.inbox)
    (hwaiting : ∀ s, (f s).terminal.input.waiting <:+ s.terminal.input.waiting)
    (hsizes : ∀ s, (f s).terminal.sizes = s.terminal.sizes)
    (htakes : ∀ s, (f s).terminal.takesSizes = true → s.terminal.takesSizes = true) :
    Passed a b none := by
  cases hs : a.shells[n]? with
  | some s =>
    exact passed_modify hs hshells
      (.beside none not_shell_none (hinbox s) (hwaiting s) (hsizes s) (htakes s))
      (fun _ _ => not_shell_none)
  | none =>
    apply passed_none
    rw [hshells, List.modify_eq_self (List.getElem?_eq_none_iff.mp hs)]

/-! ### Steps of requests and logs -/

theorem shells_stepRequest (a : Agent σ) (n : Nat) : (a.stepRequest n).agent.shells = a.shells := by
  unfold stepRequest
  repeat' split
  all_goals rfl

theorem shells_stepLog (prefersStream : Bool) (a : Agent σ) (n : Nat) :
    (stepLog prefersStream a n).agent.shells = a.shells := by
  unfold stepLog claimLog openLog readLog releaseLog
  repeat' split
  all_goals rfl

/-! ### Steps of handlers -/

theorem shell?_refused (r : Nat) (n : ShellNumber) (p : Parcel) (m : ShellNumber) :
    ∀ x, some (Event.refused r n p) = some x → x.shell? ≠ some m := by
  intro x hx
  cases hx
  exact fun heq => by cases heq

theorem shell?_accepted (r : Nat) {n m : ShellNumber} (p : Parcel) (hm : m ≠ n) :
    ∀ x, some (Event.accepted r n p) = some x → x.shell? ≠ some m := by
  intro x hx
  cases hx
  exact fun heq => hm (Option.some.inj heq).symm

/-- A parcel is handed over, refused, or has to wait. -/
theorem passed_hand (a : Agent σ) (r : Nat) (n : ShellNumber) (p : Parcel)
    (next : Bool → Program Response) :
    Passed a (a.hand r n p next).agent (a.offerEvent? r n p) := by
  unfold hand deliver offerEvent?
  cases hs : a.shells[n]? with
  | none => exact passed_same rfl (shell?_refused r n p)
  | some s =>
    by_cases hlistens : s.isListening
    · by_cases hroom : s.hasRoom p
      · simp only [hlistens, Bool.not_true, Bool.false_eq_true, if_false, hroom, if_true]
        refine passed_modify hs rfl ?_ fun m hm => shell?_accepted r p hm
        cases p <;> exact .takes r _ rfl rfl
      · simp only [hlistens, Bool.not_true, Bool.false_eq_true, if_false, hroom]
        exact passed_modify_beside (n := n) rfl (fun _ => rfl) (fun _ => List.suffix_refl _)
          (fun _ => rfl) (fun _ => id)
    · simp only [hlistens, Bool.not_false, if_true]
      exact passed_same rfl (shell?_refused r n p)

theorem passed_addShell (a : Agent σ) (id : String) (target : Cluster.Target)
    (command : List String) (size : TerminalSize) :
    Passed a (a.addShell id target command size) none where
  old n s hs := ⟨s, getElem?_append_left_of_some hs, Fares.same s not_shell_none⟩
  new n hnone := by
    refine ⟨?_, not_shell_none⟩
    intro s' hs'
    have hle : a.shells.length ≤ n := List.getElem?_eq_none_iff.mp hnone
    simp only [addShell, wake] at hs'
    rw [List.getElem?_append_right hle] at hs'
    obtain ⟨hlt, rfl⟩ := List.getElem?_eq_some_iff.mp hs'
    simp

theorem Passed.of_shells {a b c : Agent σ} {e : Option Event} (h : Passed a b e)
    (hshells : c.shells = b.shells) : Passed a c e where
  old n s hs := by
    obtain ⟨s', hs', hfares⟩ := h.old n s hs
    exact ⟨s', hshells ▸ hs', hfares⟩
  new n hnone := ⟨fun s' hs' => (h.new n hnone).1 s' (hshells ▸ hs'), (h.new n hnone).2⟩

theorem passed_ask (a : Agent σ) (r : Nat) (rest : Program Response) :
    Passed a (a.ask r rest).agent (a.programEvent? r rest) := by
  cases rest with
  | done answer => exact passed_none rfl
  | fail panic => exact passed_none rfl
  | ask act next =>
    cases act with
    | cluster call => exact passed_none rfl
    | pause ms => exact passed_none rfl
    | setGate isOpen => exact passed_none rfl
    | openShell id target command size =>
      exact (passed_addShell a id target command size).of_shells rfl
    | findShell id =>
      refine passed_same rfl ?_
      intro m x hx
      cases hx
      intro hm
      cases hm
    | sendResize n size => exact passed_hand a r n (.size size) next
    | sendInput n bytes => exact passed_hand a r n (.input bytes) next
    | openLog id target => exact passed_none rfl
    | cancelLog id =>
      apply passed_none
      simp only [ask]
      split <;> rfl

theorem passed_stepHandler (a : Agent σ) (r : Nat) :
    Passed a (a.stepHandler r).agent (a.handlerEvent? r) := by
  cases hs : a.requests[r]? with
  | none =>
    simp only [stepHandler, handlerEvent?, hs, Option.map_none]
    exact passed_none rfl
  | some s =>
    cases hstage : s.stage with
    | running rest =>
      simp only [stepHandler, handlerEvent?, hs, Option.map_some, hstage]
      exact passed_ask a r rest
    | delivering n parcel rest =>
      simp only [stepHandler, handlerEvent?, hs, Option.map_some, hstage]
      cases hshell : a.shells[n]? with
      | none => exact passed_same rfl (shell?_refused r n parcel)
      | some shell =>
        dsimp only
        split
        · exact passed_same rfl (shell?_refused r n parcel)
        · split
          · exact passed_none rfl
          · refine passed_modify hshell rfl ?_ fun m hm => shell?_accepted r parcel hm
            cases parcel <;> exact .takes r _ rfl rfl
    | received | finished | answered =>
      simp only [stepHandler, handlerEvent?, hs, Option.map_some, hstage]
      exact passed_none rfl

/-! ### Steps of bridges -/

theorem shells_closeInbox_setShellPhase (a : Agent σ) (n : ShellNumber) (s : Shell)
    (phase : Phase) :
    ((a.closeInbox n s).setShellPhase n phase).shells = a.shells.modify n
      fun s => { s with isListening := false, waiting := [], phase } := by
  simp [closeInbox, setShellPhase, modifyShell, wakeAll, List.modify_modify_eq, Function.comp_def]

/-- A step of a bridge that closes its inbox or goes on to another phase. -/
theorem passed_phase {a b : Agent σ} {n : ShellNumber} {phase : Phase}
    (hshells : b.shells = a.shells.modify n (fun s => { s with phase }) ∨
      b.shells = a.shells.modify n
        fun s => { s with isListening := false, waiting := [], phase }) :
    Passed a b none := by
  rcases hshells with hshells | hshells
  all_goals
    exact passed_modify_beside hshells (fun _ => rfl) (fun _ => List.suffix_refl _) (fun _ => rfl)
      (fun _ => id)

theorem passed_turnShell {a : Agent σ} {n : ShellNumber} {s : Shell}
    (hs : a.shells[n]? = some s) (guard : Guard) :
    Passed a (a.turnShell n s guard).agent (s.turnEvent? n) := by
  cases hturn : Session.Shell.turn s.inbox s.terminal with
  | idle =>
    rw [turnShell_idle a n guard hturn, Shell.turnEvent?, hturn]
    exact passed_none rfl
  | stopped ending =>
    rw [turnShell_stopped a n guard hturn, Shell.turnEvent?, hturn]
    exact passed_phase (.inr (shells_closeInbox_setShellPhase a n s _))
  | went inbox terminal read =>
    obtain ⟨f, ts, hagent, hf⟩ := turnShell_went a n guard hturn
    obtain ⟨-, -, hinbox, hterminal⟩ := hf s
    rw [hagent]
    refine passed_modify hs rfl (.turns read ?_) ?_
    · rw [hinbox, hterminal]
      exact hturn
    · intro m hm x hx
      rw [Shell.turnEvent?, hturn] at hx
      cases hx
      exact fun heq => hm (Option.some.inj heq).symm

theorem passed_stepShell (a : Agent σ) (n : ShellNumber) :
    Passed a (a.stepShell n).agent (a.shellEvent? n) := by
  unfold stepShell shellEvent?
  cases hs : a.shells[n]? with
  | none => exact passed_none rfl
  | some s =>
    dsimp only
    cases hphase : s.phase with
    | starting =>
      show Passed a (a.claimShell n s).agent none
      unfold claimShell
      split
      · exact passed_phase (.inr (shells_closeInbox_setShellPhase a n s _))
      · exact passed_phase (.inl rfl)
    | opening guard =>
      show Passed a (a.openShell n s guard).agent none
      unfold openShell
      split
      · exact passed_phase (.inl rfl)
      · exact passed_phase (.inl rfl)
    | live guard => exact passed_turnShell hs guard
    | closing guard last => exact passed_phase (.inl rfl)
    | closed guard =>
      exact passed_phase
        (.inr (shells_closeInbox_setShellPhase { a with
          shellTable := a.shellTable.release guard } n s _))
    | gone => exact passed_none rfl

/-! ### Moves of the world -/

theorem passed_runTask (w : World σ) (t : Task) (prefersStream : Bool) :
    Passed w.agent (w.runTask t prefersStream).agent
      (if t ∈ w.agent.ready then w.agent.event? t else none) := by
  by_cases ht : t ∈ w.agent.ready
  · rw [if_pos ht, (w.runTask_ready ht prefersStream).1]
    refine Passed.of_shells (b := (w.agent.stepOf prefersStream t).agent) ?_ (shells_after _ t)
    -- the step is taken without the task itself, which is nothing to the shells
    cases t with
    | request n => exact passed_none (shells_stepRequest (w.agent.withoutTask (.request n)) n)
    | handler n =>
      have h := passed_stepHandler (w.agent.withoutTask (.handler n)) n
      exact ⟨h.old, h.new⟩
    | shell n =>
      have h := passed_stepShell (w.agent.withoutTask (.shell n)) n
      exact ⟨h.old, h.new⟩
    | log n => exact passed_none (shells_stepLog prefersStream (w.agent.withoutTask (.log n)) n)
  · rw [if_neg ht, w.runTask_of_not_mem ht]
    exact passed_none rfl

theorem passed_onTerminal (a : Agent σ) (stream : Nat) (f : Terminal → Terminal)
    (hwaiting : ∀ t : Terminal, (f t).input.waiting <:+ t.input.waiting)
    (hsizes : ∀ t : Terminal, (f t).sizes = t.sizes)
    (htakes : ∀ t : Terminal, (f t).takesSizes = true → t.takesSizes = true) :
    Passed a (a.onTerminal stream f) none := by
  unfold onTerminal
  split
  · exact passed_none rfl
  · exact passed_modify_beside rfl (fun _ => rfl) (fun s => hwaiting s.terminal)
      (fun s => hsizes s.terminal) (fun s => htakes s.terminal)

/-- The remote side that changes its output only. -/
theorem passed_onOutput (a : Agent σ) (stream : Nat) (f : Session.Source → Session.Source) :
    Passed a (a.onTerminal stream fun t => { t with output := f t.output }) none :=
  passed_onTerminal a stream _ (fun _ => List.suffix_refl _) (fun _ => rfl) (fun _ => id)

theorem passed_collectAll (a : Agent σ) : Passed a a.collectAll none where
  old n s hs := by
    refine ⟨s.collect, by simp [collectAll, wakeAll, hs], ?_⟩
    exact .beside none not_shell_none rfl List.nil_suffix rfl id
  new n hnone := by
    refine ⟨?_, not_shell_none⟩
    intro s' hs'
    simp [collectAll, wakeAll, hnone] at hs'

theorem passed_shellWrite (w : World σ) (stream : Nat) (bytes : List UInt8) :
    Passed w.agent (w.shellWrite stream bytes).agent none := by
  unfold World.shellWrite
  rw [agent_noteWritten]
  show Passed w.agent (w.agent.shellWrite stream bytes).2 none
  unfold shellWrite
  repeat' split
  all_goals first
    | exact passed_none rfl
    | exact passed_onOutput w.agent stream (·.write bytes)

theorem shells_onSource (a : Agent σ) (stream : Nat) (f : Session.Source → Session.Source) :
    (a.onSource stream f).shells = a.shells := by
  unfold onSource
  split <;> rfl

theorem passed_logWrite (w : World σ) (stream : Nat) (bytes : List UInt8) :
    Passed w.agent (w.logWrite stream bytes).agent none := by
  unfold World.logWrite
  rw [agent_noteWritten]
  show Passed w.agent (w.agent.logWrite stream bytes).2 none
  apply passed_none
  unfold logWrite
  repeat' split
  all_goals first
    | rfl
    | exact shells_onSource w.agent stream (·.write bytes)

/-- **What a move does to the shells**, and the event that tells of it. -/
theorem passed_step (w : World σ) (m : Move σ) :
    Passed w.agent (w.step m).agent (w.event? m) := by
  cases m with
  | run t prefersStream => exact passed_runTask w t prefersStream
  | frame bytes =>
    simp only [World.step, World.hear]
    split <;> exact passed_none rfl
  | take =>
    simp only [World.step, World.take]
    split
    · exact passed_none rfl
    · split
      · rename_i hoffer
        unfold Intake.offer at hoffer
        split at hoffer
        · cases hoffer
          exact passed_none rfl
        · cases hoffer
      · exact passed_none rfl
  | stop => exact passed_none rfl
  | tick =>
    simp only [World.step, World.tick]
    split
    · exact passed_none rfl
    · rename_i hadvance
      unfold advance? at hadvance
      split at hadvance
      · cases hadvance
      · cases hadvance
        exact passed_none rfl
  | depart =>
    simp only [World.step, World.depart]
    split <;> exact passed_none rfl
  | collect => exact passed_collectAll w.agent
  | shellWrite stream bytes => exact passed_shellWrite w stream bytes
  | shellRead stream count =>
    exact passed_onTerminal w.agent stream
      (fun t => { t with input := { t.input with waiting := t.input.waiting.drop count } })
      (fun _ => List.drop_suffix _ _) (fun _ => rfl) (fun _ => id)
  | shellFail stream text => exact passed_onOutput w.agent stream (·.fail text)
  | shellCloseOutput stream => exact passed_onOutput w.agent stream (·.finish)
  | shellCloseInput stream =>
    exact passed_onTerminal w.agent stream
      (fun t => { t with input := { t.input with isOpen := false } })
      (fun _ => List.suffix_refl _) (fun _ => rfl) (fun _ => id)
  | shellCloseSizes stream =>
    refine passed_onTerminal w.agent stream (fun t => { t with takesSizes := false })
      (fun _ => List.suffix_refl _) (fun _ => rfl) ?_
    intro t htakes
    cases htakes
  | logWrite stream bytes => exact passed_logWrite w stream bytes
  | logFail stream text => exact passed_none (shells_onSource w.agent stream (·.fail text))
  | logEnd stream => exact passed_none (shells_onSource w.agent stream (·.finish))
  | change kind change object =>
    apply passed_none
    simp only [World.step, onChange]
    split <;> rfl
  | cluster change => exact passed_none rfl

end ClusterAgent.Agent
