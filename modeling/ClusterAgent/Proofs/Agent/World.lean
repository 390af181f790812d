/-
  ClusterAgent/Proofs/Agent/World.lean
  ====================================
  **The agent in its surroundings, and everything that can happen there.**

  Frames arrive and are decoded, the dispatcher takes requests until it stops, threads
  run ready tasks in any order and one step at a time, the clock moves on, remote sides
  of sessions write, take and close, the cluster changes, and the writer takes
  envelopes out of the queue.  A *run* is any list of such moves.  A move that cannot
  be made changes nothing, so every list of moves is a run and no schedule is left out:
  a step may come between any two steps of another task.

  The world also keeps a journal: which task did what, in order.  Nothing reads it but
  the theory.
-/
import ClusterAgent.Agent.Intake
import ClusterAgent.Agent.Remote

namespace ClusterAgent.Agent

variable {σ : Type}

/-- Something that happens in the world of an agent over a cluster with states of type `σ`. -/
inductive Move (σ : Type) where
  /-- A frame arrives and, if it holds a request, waits to be taken. -/
  | frame (bytes : List UInt8)
  /-- The dispatcher takes the request that has waited longest. -/
  | take
  | stop
  /-- A thread lets a ready task take a step.  A log session that has been stopped may go on with
      its stream once more, if it is given the choice and prefers to. -/
  | run (task : Task) (prefersStream : Bool)
  /-- The clock moves on to the next sleeping tasks. -/
  | tick
  /-- The writer takes the oldest envelope. -/
  | depart
  /-- All remote shells take their input. -/
  | collect
  | shellWrite (stream : Nat) (bytes : List UInt8)
  | shellRead (stream count : Nat)
  | shellFail (stream : Nat) (text : String)
  | shellCloseOutput (stream : Nat)
  | shellCloseInput (stream : Nat)
  | shellCloseSizes (stream : Nat)
  | logWrite (stream : Nat) (bytes : List UInt8)
  | logFail (stream : Nat) (text : String)
  | logEnd (stream : Nat)
  | change (kind : Kind) (change : Change) (object : Json)
  | cluster (change : σ → σ)

/-- Whether the move runs no task and leaves the requests and the outbound queue alone. -/
def Move.IsQuiet : Move σ → Prop
  | .frame _ | .take | .run .. | .depart | .change .. => False
  | _ => True

/-- The agent in its surroundings. -/
structure World (σ : Type) where
  intake : Intake σ
  /-- The requests that have arrived and have not been taken. -/
  channel : List Request
  /-- What the tasks did, in order. -/
  journal : List (Task × Deed)
  /-- What the remote sides wrote for which task, in order. -/
  written : List (Task × List UInt8)
  /-- The envelopes that the writer took, in order. -/
  departed : List Envelope

namespace World

/-- The world of an agent that takes requests and has done nothing yet. -/
def start (registry : Registry Handler) (client : Cluster.Client σ) (cluster : σ)
    (capacity tail : Nat) : World σ :=
  ⟨⟨Agent.start registry client cluster capacity tail, true⟩, [], [], [], []⟩

def agent (w : World σ) : Agent σ := w.intake.agent

def withAgent (w : World σ) (a : Agent σ) : World σ :=
  { w with intake := { w.intake with agent := a } }

/-- The requests that the dispatcher has taken, in order. -/
def taken (w : World σ) : List Request :=
  w.agent.requests.map Served.request

/-- The envelopes that came into the queue and were not evicted, in order. -/
def queued (w : World σ) : List Envelope :=
  w.departed ++ w.agent.outbound.queue

def sent (w : World σ) : List Envelope :=
  w.journal.filterMap (·.2.envelope?)

def deedsOf (w : World σ) (t : Task) : List Deed :=
  (w.journal.filter (·.1 = t)).map Prod.snd

/-- Notes what the remote side of a stream wrote, if it could write. -/
def noteWritten (w : World σ) (task : Option Task) (couldWrite : Bool) (bytes : List UInt8) :
    World σ :=
  match task with
  | some t => if couldWrite then { w with written := w.written ++ [(t, bytes)] } else w
  | none => w

def runTask (w : World σ) (t : Task) (prefersStream : Bool) : World σ :=
  if t ∈ w.agent.ready then
    let p := w.agent.stepOf prefersStream t
    { w.withAgent (p.after t) with journal := w.journal ++ p.deeds.map (t, ·) }
  else w

/-- A frame arrives; what holds no request is skipped. -/
def hear (w : World σ) (bytes : List UInt8) : World σ :=
  match Request.ofFrame? bytes with
  | none => w
  | some r => { w with channel := w.channel ++ [r] }

/-- The dispatcher takes the next request, unless it has stopped. -/
def take (w : World σ) : World σ :=
  match w.channel with
  | [] => w
  | r :: rest =>
    match w.intake.offer r with
    | (true, intake) => { w with intake, channel := rest }
    | (false, _) => w

def tick (w : World σ) : World σ :=
  match w.agent.advance? with
  | none => w
  | some a => w.withAgent a

def depart (w : World σ) : World σ :=
  match w.agent.outbound.queue with
  | [] => w
  | e :: rest =>
    { w.withAgent { w.agent with outbound := { w.agent.outbound with queue := rest } } with
      departed := w.departed ++ [e] }

def shellWrite (w : World σ) (stream : Nat) (bytes : List UInt8) : World σ :=
  (w.withAgent (w.agent.shellWrite stream bytes).2).noteWritten
    (w.agent.openedShells[stream]?.map .shell) (w.agent.shellWrite stream bytes).1 bytes

def logWrite (w : World σ) (stream : Nat) (bytes : List UInt8) : World σ :=
  (w.withAgent (w.agent.logWrite stream bytes).2).noteWritten
    (w.agent.openedLogs[stream]?.map .log) (w.agent.logWrite stream bytes).1 bytes

def step (w : World σ) : Move σ → World σ
  | .frame bytes => w.hear bytes
  | .take => w.take
  | .stop => { w with intake := w.intake.close }
  | .run t prefersStream => w.runTask t prefersStream
  | .tick => w.tick
  | .depart => w.depart
  | .collect => w.withAgent w.agent.collectAll
  | .shellWrite stream bytes => w.shellWrite stream bytes
  | .shellRead stream count => w.withAgent (w.agent.shellRead stream count)
  | .shellFail stream text => w.withAgent (w.agent.shellFail stream text)
  | .shellCloseOutput stream => w.withAgent (w.agent.shellCloseOutput stream)
  | .shellCloseInput stream => w.withAgent (w.agent.shellCloseInput stream)
  | .shellCloseSizes stream => w.withAgent (w.agent.shellCloseSizes stream)
  | .logWrite stream bytes => w.logWrite stream bytes
  | .logFail stream text => w.withAgent (w.agent.logFail stream text)
  | .logEnd stream => w.withAgent (w.agent.logEnd stream)
  | .change kind change object => w.withAgent (w.agent.onChange kind change object)
  | .cluster change => w.withAgent { w.agent with cluster := change w.agent.cluster }

def run (w : World σ) (moves : List (Move σ)) : World σ :=
  moves.foldl step w

/-- What holds at the start and is kept by every move holds after every run. -/
theorem run_induction {P : World σ → Prop} {w : World σ} (start : P w)
    (keep : ∀ w m, P w → P (w.step m)) (moves : List (Move σ)) : P (w.run moves) := by
  induction moves generalizing w with
  | nil => exact start
  | cons m rest ih => exact ih (keep w m start)

theorem runTask_ready (w : World σ) {t : Task} (ht : t ∈ w.agent.ready) (prefersStream : Bool) :
    (w.runTask t prefersStream).agent = (w.agent.stepOf prefersStream t).after t ∧
      (w.runTask t prefersStream).journal =
        w.journal ++ (w.agent.stepOf prefersStream t).deeds.map (t, ·) ∧
      (w.runTask t prefersStream).departed = w.departed := by
  unfold runTask
  rw [if_pos ht]
  exact ⟨rfl, rfl, rfl⟩

theorem runTask_of_not_mem (w : World σ) {t : Task} (ht : t ∉ w.agent.ready)
    (prefersStream : Bool) : w.runTask t prefersStream = w := by
  unfold runTask
  rw [if_neg ht]

theorem deedsOf_runTask (w : World σ) {t : Task} (ht : t ∈ w.agent.ready) (prefersStream : Bool)
    (u : Task) :
    (w.runTask t prefersStream).deedsOf u =
      w.deedsOf u ++ if t = u then (w.agent.stepOf prefersStream t).deeds else [] := by
  unfold deedsOf
  rw [(w.runTask_ready ht prefersStream).2.1]
  by_cases h : t = u <;> simp [h, List.filter_map, Function.comp_def]

end World

end ClusterAgent.Agent
