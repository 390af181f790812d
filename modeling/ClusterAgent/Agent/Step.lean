/-
  ClusterAgent/Agent/Step.lean
  ============================
  **One step of one task.**

  A step is as much as a task does before others can notice it: it routes a request,
  asks one question of a handler, or lets a session take one turn.  After a step the
  task goes on or waits for something.  Everything that tasks can observe of each other
  happens between steps, so a run of the agent is a list of steps in some order.
-/
import ClusterAgent.Agent.Basic

namespace ClusterAgent.Agent

open Handler (Program ShellNumber)
open Session (Inbox Terminal)

variable {σ : Type}

/-- Something that a step does and reports. -/
inductive Deed where
  | queue (e : Envelope)
  | call
  | claim (guard : Guard)
  /-- The attempt to open the stream of the session is over. -/
  | dial (failure : Option Cluster.Failure)
  | read (bytes : List UInt8)
  | finish (ending : Session.Ending)
  | release (guard : Guard)
deriving DecidableEq, Repr

def Deed.envelope? : Deed → Option Envelope
  | .queue e => some e
  | _ => none

/-- What a step of a task comes to. -/
structure Progress (σ : Type) where
  /-- The agent after the step, before the envelopes of the step are queued. -/
  agent : Agent σ
  /-- What the task did, in order. -/
  deeds : List Deed
  /-- Whether the task can go on; otherwise it is over, or waits until it is woken. -/
  goesOn : Bool

def goes (a : Agent σ) (deeds : List Deed) : Progress σ := ⟨a, deeds, true⟩

/-- The task is over, or waits until it is woken. -/
def rests (a : Agent σ) (deeds : List Deed) : Progress σ := ⟨a, deeds, false⟩

/-! ### Handing over to a shell session -/

/-- Whether a shell session has room for a parcel; room that is promised or waited for is taken. -/
def Shell.hasRoom (s : Shell) : Parcel → Bool
  | .size _ => s.inbox.sizes.length + s.promisedSizes < Session.Shell.sizeRoom
  | .input _ => s.inbox.inputs.length + s.promisedInputs < Session.Shell.inputRoom

def Shell.take (s : Shell) : Parcel → Shell
  | .size size => { s with inbox := { s.inbox with sizes := s.inbox.sizes ++ [size] } }
  | .input bytes => { s with inbox := { s.inbox with inputs := s.inbox.inputs ++ [bytes] } }

/-- What becomes of a parcel. -/
inductive Delivery (σ : Type) where
  | taken (a : Agent σ)
  | refused
  | full

def deliver (a : Agent σ) (n : ShellNumber) (p : Parcel) : Delivery σ :=
  match a.shells[n]? with
  | none => .refused
  | some s =>
    if !s.isListening then .refused
    else if s.hasRoom p then .taken ((a.modifyShell n (·.take p)).wake (.shell n))
    else .full

def Shell.redeem (s : Shell) (p : Parcel) : Shell :=
  match p with
  | .size _ => { s.take p with promisedSizes := s.promisedSizes - 1 }
  | .input _ => { s.take p with promisedInputs := s.promisedInputs - 1 }

/-! ### Handlers -/

def conclude (a : Agent σ) (n : Nat) (r : Response) : Agent σ :=
  (a.setStage n (.finished r)).wake (.request n)

/-- The handler of a request goes on with the rest of its program. -/
def continueWith (a : Agent σ) (n : Nat) (rest : Program Response) : Progress σ :=
  (a.setStage n (.running rest)).goes []

def addShell (a : Agent σ) (id : String) (target : Cluster.Target) (command : List String)
    (size : Cluster.TerminalSize) : Agent σ :=
  let shell : Shell :=
    ⟨id, target, command, size, .starting, Inbox.empty, Terminal.fresh, true, [], 0, 0, [], false⟩
  { a with shells := a.shells ++ [shell] }.wake (.shell a.shells.length)

def addLog (a : Agent σ) (id : String) (target : Cluster.Target) : Agent σ :=
  let log : Log := ⟨id, target, .starting, Session.Source.fresh, false⟩
  { a with logs := a.logs ++ [log] }.wake (.log a.logs.length)

/-- Stops a log session; its task notices at its next step. -/
def stopLog (a : Agent σ) (n : Nat) : Agent σ :=
  (a.modifyLog n fun l => { l with stopped := true }).wake (.log n)

/-- The handler of a request hands a parcel to a shell session, or waits until there is room. -/
def hand (a : Agent σ) (n : Nat) (shell : ShellNumber) (p : Parcel)
    (next : Bool → Program Response) : Progress σ :=
  match a.deliver shell p with
  | .taken a => a.continueWith n (next true)
  | .refused => a.continueWith n (next false)
  | .full =>
    ((a.modifyShell shell fun s => { s with waiting := s.waiting ++ [(n, p)] }).setStage n
      (.delivering shell p next)).rests []

def ask (a : Agent σ) (n : Nat) : Program Response → Progress σ
  | .done r => (a.conclude n r).rests []
  | .fail p => (a.conclude n (Response.error .unknownError p.message)).rests []
  | .ask (.cluster c) next =>
    let (reply, cluster) := a.client.call a.cluster c
    { a with cluster }.continueWith n (next reply)
  | .ask (.pause ms) next => ((a.setStage n (.running (next ()))).sleep (.handler n) ms).rests []
  | .ask (.setGate isOpen) next => { a with gate := ⟨isOpen⟩ }.continueWith n (next ())
  | .ask (.openShell id target command size) next =>
    (a.addShell id target command size).continueWith n (next ())
  | .ask (.findShell id) next => a.continueWith n (next (a.shellTable.get? id))
  | .ask (.sendResize shell size) next => a.hand n shell (.size size) next
  | .ask (.sendInput shell bytes) next => a.hand n shell (.input bytes) next
  | .ask (.openLog id target) next => (a.addLog id target).continueWith n (next ())
  | .ask (.cancelLog id) next =>
    match a.logTable.get? id with
    | some l => (a.stopLog l).continueWith n (next true)
    | none => a.continueWith n (next false)

def stepHandler (a : Agent σ) (n : Nat) : Progress σ :=
  match (a.requests[n]?.map Served.stage) with
  | some (.running rest) => a.ask n rest
  | some (.delivering shell parcel rest) =>
    match a.shells[shell]? with
    | none => a.continueWith n (rest false)
    | some s =>
      if !s.isListening then a.continueWith n (rest false)
      else if s.waiting.any (·.1 == n) then a.rests []
      else ((a.modifyShell shell (·.redeem parcel)).wake (.shell shell)).continueWith n (rest true)
  | _ => a.rests []

/-! ### Requests -/

def notFound (r : Request) : Response :=
  Response.error .actionError
    ("resource " ++ r.resource ++ " action " ++ r.action ++ " not found")

def reply (a : Agent σ) (n : Nat) (r : Request) (response : Response) : Progress σ :=
  { a with requests := a.requests.set n ⟨r, .answered response, some a.now⟩ }.rests
    [.queue (Envelope.response r.requestId response)]

/-- A step of the task that routes a request and sends its answer. -/
def stepRequest (a : Agent σ) (n : Nat) : Progress σ :=
  match a.requests[n]? with
  | some ⟨r, .received, _⟩ =>
    match a.registry.lookup r.resource r.action with
    | none => a.reply n r (notFound r)
    | some handler =>
      ((a.setStage n (.running (handler r.params))).wake (.handler n)).rests [.call]
  | some ⟨r, .finished response, _⟩ => a.reply n r response
  | _ => a.rests []

/-! ### Shell sessions -/

/-- Promises freed room to the requests that wait for it longest, and says which those are. -/
def grant (isKind : Parcel → Bool) : (free : Nat) → List (Nat × Parcel) →
    List Nat × List (Nat × Parcel)
  | _, [] => ([], [])
  | 0, waiting => ([], waiting)
  | free + 1, (n, p) :: rest =>
    if isKind p then
      let (granted, left) := grant isKind free rest
      (n :: granted, left)
    else
      let (granted, left) := grant isKind (free + 1) rest
      (granted, (n, p) :: left)

def Parcel.isSize : Parcel → Bool
  | .size _ => true
  | .input _ => false

/-- Nobody takes what is handed to a shell session any more, and nobody waits for room. -/
def closeInbox (a : Agent σ) (n : ShellNumber) (s : Shell) : Agent σ :=
  (a.modifyShell n fun s => { s with isListening := false, waiting := [] }).wakeAll
    (s.waiting.map fun w => .handler w.1)

def setShellPhase (a : Agent σ) (n : ShellNumber) (phase : Phase) : Agent σ :=
  a.modifyShell n fun s => { s with phase }

/-- Claims the identifier of a shell session, or reports that it is taken. -/
def claimShell (a : Agent σ) (n : ShellNumber) (s : Shell) : Progress σ :=
  match a.shellTable.register s.id n with
  | .error e =>
    ((a.closeInbox n s).setShellPhase n .gone).rests
      [.queue (Envelope.exec s.id e.message.toUTF8.toList)]
  | .ok (guard, table) =>
    ({ a with shellTable := table }.setShellPhase n (.opening guard)).goes [.claim guard]

def openShell (a : Agent σ) (n : ShellNumber) (s : Shell) (guard : Guard) : Progress σ :=
  match a.client.openShell a.cluster s.target with
  | some f => (a.setShellPhase n (.closing guard f.message.toUTF8.toList)).goes [.dial (some f)]
  | none =>
    ({ a with openedShells := a.openedShells ++ [n] }.setShellPhase n (.live guard)).goes
      [.dial none]

def turnShell (a : Agent σ) (n : ShellNumber) (s : Shell) (guard : Guard) : Progress σ :=
  match Session.Shell.turn s.inbox s.terminal with
  | .idle => a.rests []
  | .stopped ending =>
    ((a.closeInbox n s).setShellPhase n (.closing guard (Session.Shell.lastChunk ending))).goes
      [.finish ending]
  | .went inbox terminal read =>
    let freeSizes := s.inbox.sizes.length - inbox.sizes.length
    let freeInputs := s.inbox.inputs.length - inbox.inputs.length
    let (forSizes, waiting) := grant Parcel.isSize freeSizes s.waiting
    let (forInputs, waiting) := grant (!·.isSize) freeInputs waiting
    let a := a.modifyShell n fun s =>
      { s with
        inbox
        terminal
        waiting
        promisedSizes := s.promisedSizes + forSizes.length
        promisedInputs := s.promisedInputs + forInputs.length }
    (a.wakeAll ((forSizes ++ forInputs).map .handler)).goes
      (read.flatMap fun bytes => [.read bytes, .queue (Envelope.exec s.id bytes)])

/-- Ends a shell session: its identifier is free again. -/
def releaseShell (a : Agent σ) (n : ShellNumber) (s : Shell) (guard : Guard) : Progress σ :=
  let a := { a with shellTable := a.shellTable.release guard }
  ((a.closeInbox n s).setShellPhase n .gone).rests [.release guard]

def stepShell (a : Agent σ) (n : ShellNumber) : Progress σ :=
  match a.shells[n]? with
  | none => a.rests []
  | some s =>
    match s.phase with
    | .starting => a.claimShell n s
    | .opening guard => a.openShell n s guard
    | .live guard => a.turnShell n s guard
    | .closing guard last =>
      (a.setShellPhase n (.closed guard)).goes [.queue (Envelope.exec s.id last)]
    | .closed guard => a.releaseShell n s guard
    | .gone => a.rests []

/-! ### Log sessions -/

def setLogPhase (a : Agent σ) (n : Nat) (phase : Phase) : Agent σ :=
  a.modifyLog n fun l => { l with phase }

/-- Claims the identifier of a log session, or reports that it is taken. -/
def claimLog (a : Agent σ) (n : Nat) (l : Log) : Progress σ :=
  match a.logTable.register l.id n with
  | .error e =>
    (a.setLogPhase n .gone).rests [.queue (Envelope.log l.id e.message.toUTF8.toList)]
  | .ok (guard, table) =>
    ({ a with logTable := table }.setLogPhase n (.opening guard)).goes [.claim guard]

def openLog (a : Agent σ) (n : Nat) (l : Log) (guard : Guard) : Progress σ :=
  match a.client.openLog a.cluster l.target with
  | some f =>
    (a.setLogPhase n (.closed guard)).goes
      [.dial (some f), .queue (Envelope.log l.id f.message.toUTF8.toList)]
  | none =>
    ({ a with openedLogs := a.openedLogs ++ [n] }.setLogPhase n (.live guard)).goes [.dial none]

def readLog (a : Agent σ) (n : Nat) (l : Log) (guard : Guard) : Progress σ :=
  match l.source.read with
  | .bytes bytes source =>
    (a.modifyLog n fun l => { l with source }).goes
      [.read bytes, .queue (Envelope.log l.id bytes)]
  | .ended .finished => (a.setLogPhase n (.closed guard)).goes [.finish .finished]
  | .ended (.failed text) =>
    (a.setLogPhase n (.closed guard)).goes
      [.finish (.failed text), .queue (Envelope.log l.id text.toUTF8.toList)]
  | .nothing => a.rests []

/-- Ends a log session: its identifier is free again. -/
def releaseLog (a : Agent σ) (n : Nat) (guard : Guard) : Progress σ :=
  ({ a with logTable := a.logTable.release guard }.setLogPhase n .gone).rests [.release guard]

/-- A step of a log session.  When it has been stopped and could also go on with its stream, it does
    the latter only if it prefers to. -/
def stepLog (prefersStream : Bool) (a : Agent σ) (n : Nat) : Progress σ :=
  match a.logs[n]? with
  | none => a.rests []
  | some l =>
    match l.phase with
    | .starting => a.claimLog n l
    | .opening guard =>
      if l.stopped && !prefersStream then (a.setLogPhase n (.closed guard)).goes []
      else a.openLog n l guard
    | .live guard =>
      if l.stopped && !(prefersStream && l.source.isReady) then
        (a.setLogPhase n (.closed guard)).goes []
      else a.readLog n l guard
    | .closing guard _ | .closed guard => a.releaseLog n guard
    | .gone => a.rests []

/-! ### Any task -/

def step (prefersStream : Bool) (a : Agent σ) : Task → Progress σ
  | .request n => a.stepRequest n
  | .handler n => a.stepHandler n
  | .shell n => a.stepShell n
  | .log n => a.stepLog prefersStream n

/-- The agent after a step of a task: the envelopes of the step are queued, and the task stays ready
    if it can go on. -/
def Progress.after (p : Progress σ) (t : Task) : Agent σ :=
  let a := { p.agent with outbound := p.agent.outbound.sendAll (p.deeds.filterMap Deed.envelope?) }
  if p.goesOn then { a with ready := t :: a.ready } else a

/-- A step of a ready task, which is taken out of the list of ready tasks for it. -/
def stepOf (prefersStream : Bool) (a : Agent σ) (t : Task) : Progress σ :=
  { a with ready := a.ready.erase t }.step prefersStream t

def runTask (prefersStream : Bool) (a : Agent σ) (t : Task) : Agent σ :=
  (a.stepOf prefersStream t).after t

end ClusterAgent.Agent
