/-
  ClusterAgent/Agent/Schedule.lean
  ================================
  **Running the agent until nothing happens any more.**

  Ready tasks run first come, first served, each until it waits for something.  When
  none is ready, remote shells take the input that was written for them; when that
  wakes nobody, the clock moves on to the next sleeping task.
-/
import ClusterAgent.Agent.Step

namespace ClusterAgent.Agent

variable {σ : Type}

/-- Lets the task that has been ready longest take a step. -/
def step? (a : Agent σ) : Option (Agent σ) :=
  match a.ready with
  | [] => none
  | t :: _ => some (a.runTask false t)

/-- How many steps an agent is given to come to rest. -/
def patience : Nat := 1000000

/-- Lets ready tasks take steps until none is left. -/
def drainReady : Nat → Agent σ → Agent σ
  | 0, a => a
  | fuel + 1, a =>
    match a.step? with
    | none => a
    | some a => drainReady fuel a

/-- The remote side of a shell takes the input written for it. -/
def Shell.collect (s : Shell) : Shell :=
  let (bytes, sink) := s.terminal.input.take
  { s with typed := s.typed ++ bytes, terminal := { s.terminal with input := sink } }

def blockedShells (a : Agent σ) : List Task :=
  (List.range a.shells.length).filterMap fun n =>
    match a.shells[n]? with
    | some s =>
      if s.inbox.writing ≠ [] ∧ s.phase ≠ .gone ∧ s.terminal.input.waiting ≠ [] then
        some (.shell n)
      else none
    | none => none

/-- All remote shells take their input; the bridges that waited for this are ready again. -/
def collectAll (a : Agent σ) : Agent σ :=
  { a with shells := a.shells.map Shell.collect }.wakeAll a.blockedShells

/-- Runs until nothing more happens without time passing. -/
def settleNow : Nat → Agent σ → Agent σ
  | 0, a => a
  | fuel + 1, a =>
    let a := (drainReady patience a).collectAll
    if a.ready = [] then a else settleNow fuel a

/-- Moves the clock to the next sleeping tasks and wakes them. -/
def advance? (a : Agent σ) : Option (Agent σ) :=
  match a.timers with
  | [] => none
  | (deadline, _) :: _ =>
    let isDue (t : Nat × Task) : Bool := decide (t.1 ≤ deadline)
    let due := (a.timers.filter isDue).map Prod.snd
    let later := a.timers.filter fun t => !isDue t
    some ({ a with now := deadline, timers := later }.wakeAll due)

/-- Runs until nothing more happens at all. -/
def settleFor : Nat → Agent σ → Agent σ
  | 0, a => a
  | fuel + 1, a =>
    let a := settleNow patience a
    match a.advance? with
    | none => a
    | some a => settleFor fuel a

/-- Runs until nothing more happens at all. -/
def settle (a : Agent σ) : Agent σ :=
  settleFor patience a

/-- Runs until nothing more happens and takes what is queued at every rest, with the time. -/
def traceFor : Nat → Agent σ → List (Nat × Envelope) × Agent σ
  | 0, a => ([], a)
  | fuel + 1, a =>
    let a := settleNow patience a
    let (sent, outbound) := a.outbound.drain
    let here := sent.map fun e => (a.now, e)
    let a := { a with outbound }
    match a.advance? with
    | none => (here, a)
    | some a =>
      let (more, a) := traceFor fuel a
      (here ++ more, a)

/-- Runs until nothing more happens and takes what is queued at every rest, with the time. -/
def trace (a : Agent σ) : List (Nat × Envelope) × Agent σ :=
  traceFor patience a

end ClusterAgent.Agent
