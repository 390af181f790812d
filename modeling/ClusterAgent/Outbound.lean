/-
  ClusterAgent/Outbound.lean
  ==========================
  **The outbound queue.**

  Replies, change events and session output all leave through one queue.  It is
  bounded: a full queue gives up its *oldest* envelope for the new one and counts
  the loss, so that sending never waits.
-/
import ClusterAgent.Protocol.Envelope

namespace ClusterAgent

/-- A bounded first-in-first-out queue that evicts its oldest envelope when full. -/
structure Outbound where
  capacity : Nat
  queue : List Envelope
  dropped : Nat
deriving Repr

namespace Outbound

/-- An empty queue; it holds at least one envelope. -/
def ofCapacity (capacity : Nat) : Outbound := ⟨max capacity 1, [], 0⟩

def size (o : Outbound) : Nat := o.queue.length

/-- Queues an envelope, evicting the oldest one if there is no room. -/
def send (o : Outbound) (e : Envelope) : Outbound :=
  if o.capacity ≤ o.queue.length then
    { o with queue := o.queue.drop 1 ++ [e], dropped := o.dropped + (o.queue.take 1).length }
  else { o with queue := o.queue ++ [e] }

/-- Queues several envelopes in order. -/
def sendAll (o : Outbound) (es : List Envelope) : Outbound :=
  es.foldl send o

def receive? (o : Outbound) : Option Envelope × Outbound :=
  match o.queue with
  | [] => (none, o)
  | e :: rest => (some e, { o with queue := rest })

def drain (o : Outbound) : List Envelope × Outbound :=
  (o.queue, { o with queue := [] })

end Outbound

end ClusterAgent
