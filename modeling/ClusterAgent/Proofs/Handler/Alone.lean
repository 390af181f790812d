/-
  ClusterAgent/Proofs/Handler/Alone.lean
  ======================================
  **What a handler comes to while nobody else uses the cluster.**

  `Program.alone` answers the questions of a program one after the other, all by the
  same client, and keeps what the cluster has become.  The task that runs a handler in
  the agent takes the very same steps, with others in between if there are any:
  `alone_stepHandler` says what one step keeps, `alone_handler` what they come to.
-/
import ClusterAgent.Agent.Step
import Mathlib.Logic.Function.Iterate

namespace ClusterAgent.Handler

open Agent (Served Stage)
open Cluster (Client)

variable {σ α β : Type}

/-- The result of a program and the cluster after it, if nobody else uses the cluster.  Pauses
    change nothing; a program that breaks down or asks for a session has no result here. -/
def Program.alone (client : Client σ) : Program α → σ → Option (α × σ)
  | .done result, s => some (result, s)
  | .ask (.cluster c) next, s => (next (client.call s c).1).alone client (client.call s c).2
  | .ask (.pause _) next, s => (next ()).alone client s
  | _, _ => none

variable {client : Client σ} {s : σ}

theorem alone_bind (p : Program α) (f : α → Program β) :
    (p.bind f).alone client s =
      (p.alone client s).bind fun (result, s) => (f result).alone client s := by
  induction p generalizing s with
  | done result => rfl
  | fail panic => rfl
  | ask act next ih =>
    cases act with
    | cluster c => exact ih _
    | pause ms => exact ih ()
    | setGate | openShell | findShell | sendResize | sendInput | openLog | cancelLog => rfl

/-! ### The task of a handler -/

/-- How far a request of the agent has come. -/
def stage? (a : Agent σ) (n : Nat) : Option Stage :=
  a.requests[n]?.map Served.stage

theorem stage?_setStage {a : Agent σ} {n : Nat} {old : Stage} (h : stage? a n = some old)
    (stage : Stage) : stage? (a.setStage n stage) n = some stage := by
  obtain ⟨served, hserved, -⟩ := Option.map_eq_some_iff.mp h
  simp [stage?, Agent.setStage, hserved]

/-- A step of the task ends with the result, or leaves the program that follows a reply, with the
    same result. -/
theorem alone_stepHandler {a : Agent σ} {n : Nat} {p : Program Response} {r : Response}
    (hstage : stage? a n = some (.running p)) (h : p.alone a.client a.cluster = some (r, s)) :
    let b := (a.stepHandler n).agent
    stage? b n = some (.finished r) ∧ b.cluster = s ∨
      ∃ act next reply, p = .ask act next ∧ stage? b n = some (.running (next reply)) ∧
        (next reply).alone b.client b.cluster = some (r, s) := by
  unfold stage? at hstage
  unfold Agent.stepHandler
  rw [hstage]
  cases p with
  | done result =>
    obtain ⟨rfl, rfl⟩ : result = r ∧ a.cluster = s := by simpa [Program.alone] using h
    exact .inl ⟨stage?_setStage hstage _, rfl⟩
  | fail panic => cases h
  | ask act next =>
    cases act with
    | cluster c => exact .inr ⟨_, _, _, rfl, stage?_setStage hstage _, h⟩
    | pause ms => exact .inr ⟨_, _, _, rfl, stage?_setStage hstage _, h⟩
    | setGate | openShell | findShell | sendResize | sendInput | openLog | cancelLog => cases h

/-- The steps of the task alone come to what the program comes to alone. -/
theorem alone_handler {a : Agent σ} {n : Nat} {p : Program Response} {r : Response}
    (hstage : stage? a n = some (.running p)) (h : p.alone a.client a.cluster = some (r, s)) :
    ∃ steps, let b := (fun a : Agent σ => (a.stepHandler n).agent)^[steps] a
      stage? b n = some (.finished r) ∧ b.cluster = s := by
  induction p generalizing a with
  | done result =>
    rcases alone_stepHandler hstage h with hover | ⟨_, _, _, hask, -⟩
    · exact ⟨1, hover⟩
    · cases hask
  | fail panic => cases h
  | ask act next ih =>
    rcases alone_stepHandler hstage h with hover | ⟨_, _, reply, hask, hnext, hrest⟩
    · exact ⟨1, hover⟩
    · cases hask
      obtain ⟨steps, hsteps⟩ := ih reply hnext hrest
      exact ⟨steps + 1, hsteps⟩

end ClusterAgent.Handler
