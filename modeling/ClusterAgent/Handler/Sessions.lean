/-
  ClusterAgent/Handler/Sessions.lean
  ==================================
  **Opening and steering pod sessions.**

  Opening a shell or a log only checks the parameters and starts the session; its
  output arrives later under the identifier that the caller chose.
-/
import ClusterAgent.Handler.Params
import ClusterAgent.Handler.Program

namespace ClusterAgent.Handler

open Cluster (Target TerminalSize)

/-- The command of an interactive shell: it exports the terminal size, prefers one shell and falls
    back to another. -/
def shellCommand (size : TerminalSize) : List String :=
  ["/bin/sh", "-c",
    "export LINES=" ++ toString size.rows ++ "; export COLUMNS=" ++ toString size.cols ++
      "; TERM=xterm-256color; export TERM; [ -x /bin/bash ] && exec /bin/bash || exec /bin/sh"]

/-- The answer to a request that does not say which pod and which session. -/
def checkSession (name ns session : String) : Option Response :=
  if name = "" then some (Response.error .paramsError "Pod name is blank")
  else if ns = "" then some (Response.error .paramsError "Namespace is blank")
  else if session = "" then some (Response.error .paramsError "Session id is blank")
  else none

/-- The container that parameters name; a blank container is none. -/
def target (name ns container : String) : Target :=
  ⟨ns, name, if container = "" then none else some container⟩

def exec : Handler := fun params =>
  let p := ExecParams.schema.decodeLenient params
  match checkSession p.name p.ns p.sessionId with
  | some refusal => .done refusal
  | none =>
    let size := if 0 < p.rows ∧ 0 < p.cols then ⟨p.rows, p.cols⟩ else TerminalSize.default
    .ask (.openShell p.sessionId (target p.name p.ns p.container) (shellCommand size) size)
      fun _ => .done Response.ok

/-- Why input did not reach a shell. -/
inductive StdinFailure where
  | notFound
  /-- The session ended before it took the input. -/
  | closed (session : String)
deriving DecidableEq, Repr

def StdinFailure.message : StdinFailure → String
  | .notFound => "Not found session id"
  | .closed session => "session " ++ session ++ " is closed"

/-- Hands a size, if any, and then input to a shell session. -/
def writeStdin (session : String) (input : List UInt8) (resize : Option TerminalSize) :
    Program (Except StdinFailure Unit) :=
  .ask (.findShell session) fun (found : Option ShellNumber) =>
    match found with
    | none => .done (.error .notFound)
    | some shell =>
      let send : Program (Except StdinFailure Unit) :=
        .ask (.sendInput shell input) fun (taken : Bool) =>
          .done (if taken then .ok () else .error (.closed session))
      match resize with
      | none => send
      | some size =>
        .ask (.sendResize shell size) fun (taken : Bool) =>
          if taken then send else .done (.error (.closed session))

/-- Hands a size and input to a shell session and answers. -/
def stdin : Handler := fun params =>
  let p := StdinParams.schema.decodeLenient params
  let resize := if 0 < p.width ∧ 0 < p.height then some ⟨p.height, p.width⟩ else none
  (writeStdin p.sessionId p.input.toUTF8.toList resize).bind fun result =>
    .done (match result with
      | .ok _ => Response.ok
      | .error f => Response.error .paramsError f.message)

def openLog : Handler := fun params =>
  let p := OpenLogParams.schema.decodeLenient params
  match checkSession p.name p.ns p.sessionId with
  | some refusal => .done refusal
  | none =>
    .ask (.openLog p.sessionId (target p.name p.ns p.container)) fun _ => .done Response.ok

/-- Stops a log session if there is one; a session that is unknown needs no stopping. -/
def closeLog : Handler := fun params =>
  .ask (.cancelLog (CloseLogParams.schema.decodeLenient params).sessionId) fun _ =>
    .done Response.ok

end ClusterAgent.Handler
