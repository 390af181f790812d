/-
  ClusterAgent/Proofs/Handler/Outcome.lean
  ========================================
  **What a handler may come to.**

  A program is a tree of questions.  Whoever answers them walks down one branch of it,
  and what the handler comes to is the leaf at the end: `Program.Reaches` is the walk,
  `Program.ComesTo` the leaf.  A handler returns a response or breaks down; either
  way there is one response to be sent, `Outcome.response`.
-/
import ClusterAgent.Handler.Program

namespace ClusterAgent.Handler

variable {α : Type}

/-- A program is left over from another one after some of its questions were answered. -/
inductive Program.Reaches : Program α → Program α → Prop where
  | refl (p : Program α) : p.Reaches p
  | reply {p : Program α} {act : Act} {next : act.Reply → Program α}
      (h : p.Reaches (.ask act next)) (r : act.Reply) : p.Reaches (next r)

/-- How the run of a handler ends. -/
inductive Outcome where
  | returned (response : Response)
  | broke (panic : Panic)

namespace Outcome

def leaf : Outcome → Program Response
  | .returned r => .done r
  | .broke p => .fail p

/-- The response to be sent: the handler's own, or one that tells why there is none. -/
def response : Outcome → Response
  | .returned r => r
  | .broke p => Response.error .unknownError p.message

end Outcome

/-- A program may end so, for some replies to its questions. -/
def Program.ComesTo (p : Program Response) (o : Outcome) : Prop :=
  p.Reaches o.leaf

end ClusterAgent.Handler
