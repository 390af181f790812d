/-
  ClusterAgent/Agent/Basic.lean
  =============================
  **The agent at work: its tasks and what they share.**

  Every request is served by two tasks, one that routes it and sends the answer and
  one that runs its handler, so that a handler that breaks down takes nothing else
  with it.  Every session has a task of its own.  Tasks share the outbound queue, the
  watch gate, the session tables and the cluster; a task that can go on stands in the
  list `ready`, one that sleeps in the list `timers`.
-/
import ClusterAgent.Cluster.Client
import ClusterAgent.Handler.Program
import ClusterAgent.Protocol.Request
import ClusterAgent.Registry
import ClusterAgent.Session.Log
import ClusterAgent.Session.Shell
import ClusterAgent.SessionTable
import ClusterAgent.Watch.Gate

namespace ClusterAgent

open Cluster (Target TerminalSize)
open Handler (Program ShellNumber)
open Session (Inbox Terminal Source)

/-- A task, by kind and number. -/
inductive Agent.Task where
  | request (n : Nat)
  | handler (n : Nat)
  | shell (n : ShellNumber)
  | log (n : Nat)
deriving DecidableEq, Repr

/-- Something handed to a shell session. -/
inductive Agent.Parcel where
  | size (size : TerminalSize)
  | input (bytes : List UInt8)
deriving DecidableEq, Repr

/-- How far a request has come. -/
inductive Agent.Stage where
  | received
  /-- Its handler goes on with the rest of its program. -/
  | running (rest : Program Response)
  /-- Its handler waits until a shell session has room, and goes on with whether it was taken. -/
  | delivering (shell : ShellNumber) (parcel : Parcel) (rest : Bool → Program Response)
  /-- Its handler is done; the answer waits to be sent. -/
  | finished (response : Response)
  | answered (response : Response)

/-- A request that is being served. -/
structure Agent.Served where
  request : Request
  stage : Stage
  answeredAt : Option Nat

/-- How far a session has come. -/
inductive Agent.Phase where
  | starting
  /-- It holds its identifier and waits for its stream. -/
  | opening (guard : Guard)
  | live (guard : Guard)
  /-- It has no stream any more, and its last chunk is still to be queued. -/
  | closing (guard : Guard) (last : List UInt8)
  /-- It will queue nothing more and still holds its identifier. -/
  | closed (guard : Guard)
  | gone
deriving DecidableEq, Repr

def Agent.Phase.isLive : Phase → Bool
  | .live _ => true
  | _ => false

structure Agent.Shell where
  id : String
  target : Target
  command : List String
  size : TerminalSize
  phase : Phase
  inbox : Inbox
  terminal : Terminal
  /-- Whether there is still somebody to take what is handed over. -/
  isListening : Bool
  /-- The requests that wait for room, with what they want to hand over. -/
  waiting : List (Nat × Parcel)
  /-- Room promised to requests that have not used it yet. -/
  promisedSizes : Nat
  promisedInputs : Nat
  /-- What the remote side has taken from the input and has not been looked at. -/
  typed : List UInt8
  /-- Whether the remote side has been seen to lose the session. -/
  hangupSeen : Bool

structure Agent.Log where
  id : String
  target : Target
  phase : Phase
  source : Source
  stopped : Bool

/-- The agent over a cluster client with states of type `σ`. -/
structure Agent (σ : Type) where
  registry : Registry Handler
  client : Cluster.Client σ
  cluster : σ
  /-- How many lines of history a log session asks for. -/
  tail : Nat
  outbound : Outbound
  gate : Watch.Gate
  shellTable : SessionTable ShellNumber
  logTable : SessionTable Nat
  requests : List Agent.Served
  shells : List Agent.Shell
  logs : List Agent.Log
  /-- The shell sessions with a stream, in the order in which the streams were opened. -/
  openedShells : List ShellNumber
  openedLogs : List Nat
  ready : List Agent.Task
  /-- The sleeping tasks with the times they sleep to, in the order in which they will wake. -/
  timers : List (Nat × Agent.Task)
  now : Nat

namespace Agent

variable {σ : Type}

def start (registry : Registry Handler) (client : Cluster.Client σ) (cluster : σ)
    (capacity tail : Nat) : Agent σ where
  registry := registry
  client := client
  cluster := cluster
  tail := tail
  outbound := Outbound.ofCapacity capacity
  gate := Watch.Gate.closed
  shellTable := SessionTable.empty
  logTable := SessionTable.empty
  requests := []
  shells := []
  logs := []
  openedShells := []
  openedLogs := []
  ready := []
  timers := []
  now := 0

/-! ### Waking and sleeping -/

/-- Puts a task behind those that are ready, unless it is one of them. -/
def enqueue (ready : List Task) (t : Task) : List Task :=
  if t ∈ ready then ready else ready ++ [t]

def wake (a : Agent σ) (t : Task) : Agent σ :=
  { a with ready := enqueue a.ready t }

/-- Makes several tasks ready in order. -/
def wakeAll (a : Agent σ) (ts : List Task) : Agent σ :=
  { a with ready := ts.foldl enqueue a.ready }

def insertTimer (deadline : Nat) (t : Task) : List (Nat × Task) → List (Nat × Task)
  | [] => [(deadline, t)]
  | (d, u) :: rest =>
    if deadline < d then (deadline, t) :: (d, u) :: rest else (d, u) :: insertTimer deadline t rest

/-- Lets a task sleep for so many milliseconds. -/
def sleep (a : Agent σ) (t : Task) (ms : Nat) : Agent σ :=
  { a with timers := insertTimer (a.now + ms) t a.timers }

/-! ### Changing one member -/

def setStage (a : Agent σ) (n : Nat) (stage : Stage) : Agent σ :=
  { a with requests := a.requests.modify n fun r => { r with stage } }

def modifyShell (a : Agent σ) (n : ShellNumber) (f : Shell → Shell) : Agent σ :=
  { a with shells := a.shells.modify n f }

def modifyLog (a : Agent σ) (n : Nat) (f : Log → Log) : Agent σ :=
  { a with logs := a.logs.modify n f }

/-- Takes a request in: its task will route it. -/
def receive (a : Agent σ) (r : Request) : Agent σ :=
  let served : Served := ⟨r, .received, none⟩
  { a with requests := a.requests ++ [served] }.wake (.request a.requests.length)

end Agent

end ClusterAgent
