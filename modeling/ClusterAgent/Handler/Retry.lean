/-
  ClusterAgent/Handler/Retry.lean
  ===============================
  **Replacing an object in spite of conflicts.**

  A replacement that meets a conflict is tried again with the latest version of the
  object, up to five times in all and after pauses that double.  Every other failure
  ends it at once.
-/
import ClusterAgent.Handler.Program

namespace ClusterAgent.Handler

open Cluster (Failure objectName)

/-- How often a replacement is tried before a conflict is reported. -/
def conflictAttempts : Nat := 5

/-- The pause in milliseconds after the conflict of an attempt, counted from zero. -/
def backoff (attempt : Nat) : Nat := 10 * Nat.pow 2 attempt

/-- Why an update gave up. -/
inductive UpdateFailure where
  | reading (failure : Failure)
  | replacing (failure : Failure)
deriving DecidableEq, Repr

def UpdateFailure.response : UpdateFailure → Response
  | .reading f => Response.error .getError f.message
  | .replacing f => Response.error .updateError f.message

/-- Replaces `candidate`, and after a conflict `build` of the latest version, while attempts are
    left besides this one. -/
def replaceFrom (kind : Kind) (ns : String) (build : Option Json → Json) :
    (left : Nat) → (candidate : Json) → Program (Except UpdateFailure Json)
  | left, candidate =>
    .ask (.cluster (.replace kind candidate)) fun (reply : Except Failure Json) =>
      match reply with
      | .ok stored => .done (.ok stored)
      | .error f =>
        if f.isConflict then
          match left with
          | 0 => .done (.error (.replacing f))
          | left + 1 =>
            .ask (.pause (backoff (conflictAttempts - 2 - left))) fun _ =>
              .ask (.cluster (.get kind ns (objectName candidate)))
                fun (reply : Except Failure Json) =>
                  match reply with
                  | .error f => .done (.error (.reading f))
                  | .ok latest => replaceFrom kind ns build left (build (some latest))
        else .done (.error (.replacing f))

/-- Replaces what `build` makes, first of nothing and after each conflict of the latest version. -/
def retryOnConflict (kind : Kind) (ns : String) (build : Option Json → Json) :
    Program (Except UpdateFailure Json) :=
  replaceFrom kind ns build (conflictAttempts - 1) (build none)

end ClusterAgent.Handler
