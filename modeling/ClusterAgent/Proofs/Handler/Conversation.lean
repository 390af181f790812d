/-
  ClusterAgent/Proofs/Handler/Conversation.lean
  =============================================
  **A handler and whoever answers it.**

  A program asks and somebody replies: a cluster, other requests that use the same cluster
  in between, the clock.  A `Partner` may look at all that was said before, so a statement
  about every partner is one about every cluster, whatever it answers and in whatever
  order.  `Program.converse` is what is said until the program ends, and how it ends.
-/
import ClusterAgent.Handler.Program

namespace ClusterAgent.Handler

variable {α : Type}

/-- A question and the reply that it got. -/
structure Exchange where
  act : Act
  reply : act.Reply

/-- Whoever answers: the reply to a question, given all that was said before. -/
abbrev Partner := List Exchange → (act : Act) → act.Reply

/-- A talk with one more exchange before it. -/
def Exchange.andThen (e : Exchange) (talk : List Exchange × Except Panic α) :
    List Exchange × Except Panic α :=
  (e :: talk.1, talk.2)

/-- What is said after `past` until the program ends, and how it ends. -/
def Program.converse (partner : Partner) :
    Program α → (past : List Exchange) → List Exchange × Except Panic α
  | .done result, _ => ([], .ok result)
  | .fail panic, _ => ([], .error panic)
  | .ask act next, past =>
    let exchange : Exchange := ⟨act, partner past act⟩
    exchange.andThen ((next exchange.reply).converse partner (past ++ [exchange]))

/-- A program that goes on to work out something from its result says no more. -/
theorem converse_map {β : Type} (partner : Partner) (p : Program α) (f : α → β)
    (past : List Exchange) :
    (p.bind fun result => .done (f result)).converse partner past =
      ((p.converse partner past).1, (p.converse partner past).2.map f) := by
  induction p generalizing past with
  | done result => rfl
  | fail panic => rfl
  | ask act next ih =>
    simp only [Program.bind, Program.converse, ih]
    rfl

/-! ### Each exchange and what was said before it -/

/-- Every exchange stands to what was said before it as `P` says. -/
def Each (P : List Exchange → Exchange → Prop) : (past said : List Exchange) → Prop
  | _, [] => True
  | past, e :: later => P past e ∧ Each P (past ++ [e]) later

theorem Each.of_append {P : List Exchange → Exchange → Prop} {past before after : List Exchange}
    {e : Exchange} (h : Each P past (before ++ e :: after)) : P (past ++ before) e := by
  induction before generalizing past with
  | nil =>
    rw [List.append_nil]
    exact h.1
  | cons first before ih =>
    have hlater := ih h.2
    rwa [List.append_assoc] at hlater

/-- Every reply is the one that the partner gives to what was said before. -/
theorem each_reply (partner : Partner) (p : Program α) (past : List Exchange) :
    Each (fun before e => e.reply = partner before e.act) past (p.converse partner past).1 := by
  induction p generalizing past with
  | done result => trivial
  | fail panic => trivial
  | ask act next ih => exact ⟨rfl, ih _ _⟩

end ClusterAgent.Handler
