/-
  ClusterAgent/Agent/Remote.lean
  ==============================
  **What happens to the agent from outside.**

  The remote sides of shells and logs write, take and close; the cluster reports
  changes.  Streams are numbered from zero in the order in which they were opened.
-/
import ClusterAgent.Agent.Schedule

namespace ClusterAgent.Agent

open Cluster (TerminalSize)

variable {σ : Type}

/-! ### Shells -/

def openedShell? (a : Agent σ) (stream : Nat) : Option (Nat × Shell) := do
  let n ← a.openedShells[stream]?
  let s ← a.shells[n]?
  some (n, s)

/-- Changes the terminal of an opened stream and wakes its bridge. -/
def onTerminal (a : Agent σ) (stream : Nat) (f : Session.Terminal → Session.Terminal) : Agent σ :=
  match a.openedShells[stream]? with
  | none => a
  | some n => (a.modifyShell n fun s => { s with terminal := f s.terminal }).wake (.shell n)

/-- The remote side writes output; it can as long as its own end and the session are there. -/
def shellWrite (a : Agent σ) (stream : Nat) (bytes : List UInt8) : Bool × Agent σ :=
  match a.openedShell? stream with
  | none => (false, a)
  | some (_, s) =>
    if s.terminal.output.ending.isSome then (false, a)
    else if bytes = [] then (true, a)
    else if !s.phase.isLive then (false, a)
    else (true, a.onTerminal stream fun t => { t with output := t.output.write bytes })

def shellCloseOutput (a : Agent σ) (stream : Nat) : Agent σ :=
  a.onTerminal stream fun t => { t with output := t.output.finish }

def shellFail (a : Agent σ) (stream : Nat) (text : String) : Agent σ :=
  a.onTerminal stream fun t => { t with output := t.output.fail text }

/-- The remote side takes so many bytes of its input. -/
def shellRead (a : Agent σ) (stream count : Nat) : Agent σ :=
  a.onTerminal stream fun t =>
    { t with input := { t.input with waiting := t.input.waiting.drop count } }

def shellCloseInput (a : Agent σ) (stream : Nat) : Agent σ :=
  a.onTerminal stream fun t => { t with input := { t.input with isOpen := false } }

def shellCloseSizes (a : Agent σ) (stream : Nat) : Agent σ :=
  a.onTerminal stream fun t => { t with takesSizes := false }

def shellClose (a : Agent σ) (stream : Nat) : Agent σ :=
  ((a.shellCloseInput stream).shellCloseSizes stream).shellCloseOutput stream

/-- What the remote side of a shell has noticed since it last looked. -/
structure News where
  stream : Nat
  input : List UInt8
  sizes : List TerminalSize
  hangup : Bool

/-- The news of a shell: the input it took, the sizes it got, and whether the agent has closed its
    side, which it notices while its own input end is there. -/
def Shell.news (stream : Nat) (s : Shell) : News :=
  { stream
    input := s.typed
    sizes := if s.terminal.takesSizes then s.terminal.sizes else []
    hangup := s.phase = .gone ∧ s.terminal.input.isOpen ∧ !s.hangupSeen }

def News.isAny (n : News) : Bool :=
  !n.input.isEmpty || !n.sizes.isEmpty || n.hangup

def Shell.seen (s : Shell) : Shell :=
  { s with
    typed := []
    terminal := { s.terminal with sizes := [] }
    hangupSeen := s.hangupSeen || (s.phase = .gone ∧ s.terminal.input.isOpen) }

def look (a : Agent σ) : List News × Agent σ :=
  let news := (List.range a.openedShells.length).filterMap fun stream =>
    (a.openedShell? stream).map fun (_, s) => s.news stream
  (news.filter News.isAny, a.openedShells.foldl (fun a n => a.modifyShell n Shell.seen) a)

/-! ### Logs -/

def openedLog? (a : Agent σ) (stream : Nat) : Option (Nat × Log) := do
  let n ← a.openedLogs[stream]?
  let l ← a.logs[n]?
  some (n, l)

/-- Changes the source of an opened log and wakes its bridge. -/
def onSource (a : Agent σ) (stream : Nat) (f : Session.Source → Session.Source) : Agent σ :=
  match a.openedLogs[stream]? with
  | none => a
  | some n => (a.modifyLog n fun l => { l with source := f l.source }).wake (.log n)

/-- The remote side writes to a log; it can as long as its own end and the session are there. -/
def logWrite (a : Agent σ) (stream : Nat) (bytes : List UInt8) : Bool × Agent σ :=
  match a.openedLog? stream with
  | none => (false, a)
  | some (_, l) =>
    if l.source.ending.isSome then (false, a)
    else if bytes = [] then (true, a)
    else if !l.phase.isLive then (false, a)
    else (true, a.onSource stream (·.write bytes))

def logEnd (a : Agent σ) (stream : Nat) : Agent σ :=
  a.onSource stream (·.finish)

def logFail (a : Agent σ) (stream : Nat) (text : String) : Agent σ :=
  a.onSource stream (·.fail text)

/-! ### Changes of the cluster -/

def watchedKind? (plural : String) : Option Kind :=
  Kind.watched.find? (·.plural == plural)

/-- The cluster reports a change of an object of a watched kind. -/
def onChange (a : Agent σ) (kind : Kind) (change : Change) (object : Json) : Agent σ :=
  match kind.watch with
  | none => a
  | some label => { a with outbound := a.gate.forward a.outbound ⟨change, label, object⟩ }

/-! ### Sessions by identifier -/

def isShellOpen (a : Agent σ) (id : String) : Bool := a.shellTable.contains id

def isLogOpen (a : Agent σ) (id : String) : Bool := a.logTable.contains id

end ClusterAgent.Agent
