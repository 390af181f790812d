/-
  ClusterAgent/Tunnel/Wakeup.lean
  ===============================
  **How the writer learns that the queue is not empty.**

  A producer first puts its envelope into the queue and then rings a bell.  The writer
  looks into the queue before it waits for the bell, and looks again when its wait is
  over.  It may stop at any time to do something else, and it looks again when it comes
  back.

  The bell is a parameter (`Bell`): what is done to it, and what can be seen of it.  A
  chime (`Chime.bell`) wakes whoever waits and stores at most one ring if nobody does;
  if its listener was already being woken and goes away, the ring is kept for the next wait.
-/
import ClusterAgent.Outbound

namespace ClusterAgent.Tunnel

/-! ### Bells -/

/-- How its listener stands to a bell. -/
inductive Waiter where
  | absent
  | asleep
  /-- The bell has rung for it, and it has not noticed yet. -/
  | woken
deriving DecidableEq, Repr, Inhabited

/-- A bell with at most one listener. -/
structure Bell (σ : Type) where
  silent : σ
  ring : σ → σ
  /-- The listener, who waits or is about to, asks whether the wait is over. -/
  ask : σ → Bool × σ
  /-- The listener goes away in the middle of its wait. -/
  abandon : σ → σ
  /-- Whether there is a ring for a wait that has not begun. -/
  hasStored : σ → Bool
  waiter : σ → Waiter

/-- The state of a bell that has room for one ring. -/
inductive Chime where
  | silent
  | stored
  | waited
  | woken (hasStored : Bool)
deriving DecidableEq, Repr, Inhabited

namespace Chime

def ring : Chime → Chime
  | .silent | .stored => .stored
  | .waited => .woken false
  | .woken _ => .woken true

def ask : Chime → Bool × Chime
  | .silent | .waited => (false, .waited)
  | .stored | .woken false => (true, .silent)
  | .woken true => (true, .stored)

def abandon : Chime → Chime
  | .silent | .waited => .silent
  | .stored | .woken _ => .stored

def hasStored : Chime → Bool
  | .silent | .waited => false
  | .stored => true
  | .woken hasStored => hasStored

def waiter : Chime → Waiter
  | .silent | .stored => .absent
  | .waited => .asleep
  | .woken _ => .woken

def bell : Bell Chime := ⟨.silent, ring, ask, abandon, hasStored, waiter⟩

end Chime

/-! ### Handing envelopes over -/

/-- What the writer does to get the next envelope. -/
inductive Listener where
  /-- It is about to look into the queue. -/
  | looking
  /-- It found the queue empty and is about to wait. -/
  | turning
  | waiting
  | away
deriving DecidableEq, Repr, Inhabited

/-- The queue, the bell and those who use them: any number of producers, each with a number of its
    own, and the writer. -/
structure Handover (σ : Type) where
  outbound : Outbound
  bell : σ
  listener : Listener
  /-- The producers that have queued their envelope and not rung yet. -/
  ringing : List Nat
deriving Repr

/-- Something that a producer or the writer does. -/
inductive Handover.Event where
  | queue (producer : Nat) (envelope : Envelope)
  | ring (producer : Nat)
  /-- The writer begins to look for an envelope. -/
  | come
  | look
  /-- It begins to wait, or is back in the middle of a wait. -/
  | ask
  | leave
deriving DecidableEq, Repr

namespace Handover

variable {σ : Type}

def start (bell : Bell σ) (capacity : Nat) : Handover σ :=
  ⟨Outbound.ofCapacity capacity, bell.silent, .away, []⟩

/-- The writer found the queue empty and has not looked again. -/
def HasTurned (h : Handover σ) : Prop := h.listener = .turning ∨ h.listener = .waiting

instance (h : Handover σ) : Decidable h.HasTurned := inferInstanceAs (Decidable (_ ∨ _))

/-- One step, if it can be taken. -/
def step? (bell : Bell σ) (h : Handover σ) : Event → Option (Handover σ)
  | .queue p e =>
    if p ∈ h.ringing then none
    else some { h with outbound := h.outbound.send e, ringing := p :: h.ringing }
  | .ring p =>
    if p ∈ h.ringing then
      some { h with bell := bell.ring h.bell, ringing := h.ringing.erase p }
    else none
  | .come => if h.listener = .away then some { h with listener := .looking } else none
  | .look =>
    if h.listener = .looking then
      match h.outbound.receive? with
      | (some _, outbound) => some { h with outbound, listener := .away }
      | (none, _) => some { h with listener := .turning }
    else none
  | .ask =>
    if h.HasTurned then
      let (isOver, s) := bell.ask h.bell
      some { h with bell := s, listener := if isOver then .looking else .waiting }
    else none
  | .leave =>
    match h.listener with
    | .looking | .turning => some { h with listener := .away }
    | .waiting => some { h with bell := bell.abandon h.bell, listener := .away }
    | .away => none

/-- What a sequence of steps comes to, if it can be taken. -/
def run (bell : Bell σ) (h : Handover σ) (events : List Event) : Option (Handover σ) :=
  events.foldlM (step? bell) h

end Handover

end ClusterAgent.Tunnel
