/-
  ClusterAgent/Handler/Program.lean
  =================================
  **What a handler does, as a tree.**

  A handler decodes its parameters and then asks for things one after another:
  a call to the cluster, a pause, a message to a session.  `Program` is the tree of
  its questions and of what it does with each reply.  Who answers, and what else
  happens meanwhile, is decided elsewhere; so one and the same handler runs over any
  cluster and under any schedule.
-/
import ClusterAgent.Cluster.Call
import ClusterAgent.Protocol.Response

namespace ClusterAgent.Handler

/-- The number of a started shell: it stays the same while its identifier may be given anew. -/
abbrev ShellNumber := Nat

/-- What a handler can ask for. -/
inductive Act where
  | cluster (call : Cluster.Call)
  /-- Wait for so many milliseconds. -/
  | pause (ms : Nat)
  | setGate (isOpen : Bool)
  | openShell (id : String) (target : Cluster.Target) (command : List String)
      (size : Cluster.TerminalSize)
  | findShell (id : String)
  /-- Hand a terminal size to a shell session. -/
  | sendResize (shell : ShellNumber) (size : Cluster.TerminalSize)
  | sendInput (shell : ShellNumber) (bytes : List UInt8)
  | openLog (id : String) (target : Cluster.Target)
  | cancelLog (id : String)
deriving DecidableEq, Repr

/-- The type of the reply: sending to a session says whether the session took it, stopping a log
    whether there was one. -/
def Act.Reply : Act → Type
  | .cluster call => call.Reply
  | .pause _ => Unit
  | .setGate _ => Unit
  | .openShell .. => Unit
  | .findShell _ => Option ShellNumber
  | .sendResize .. => Bool
  | .sendInput .. => Bool
  | .openLog .. => Unit
  | .cancelLog _ => Bool

/-- Why a handler came to no result. -/
inductive Panic where
  | text (message : String)
  | silent
deriving DecidableEq, Repr

/-- What is reported of a handler that came to no result. -/
def Panic.message : Panic → String
  | .text m => m
  | .silent => "handler panicked"

/-- A handler's run: a result, a breakdown, or a question and what follows each reply. -/
inductive Program (α : Type) where
  | done (result : α)
  | fail (panic : Panic)
  | ask (act : Act) (next : act.Reply → Program α)

namespace Program

variable {α β : Type}

def bind : Program α → (α → Program β) → Program β
  | .done a, f => f a
  | .fail p, _ => .fail p
  | .ask act next, f => .ask act fun reply => (next reply).bind f

instance : Monad Program where
  pure := .done
  bind := bind

def of (act : Act) : Program act.Reply :=
  .ask act .done

def call (c : Cluster.Call) : Program c.Reply :=
  .ask (.cluster c) .done

def pause (ms : Nat) : Program Unit :=
  .ask (.pause ms) .done

end Program

end ClusterAgent.Handler

namespace ClusterAgent

/-- A handler turns parameters into a run that ends with a response. -/
abbrev Handler := Json → Handler.Program Response

end ClusterAgent
