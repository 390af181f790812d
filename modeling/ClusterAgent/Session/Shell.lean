/-
  ClusterAgent/Session/Shell.lean
  ===============================
  **The bridge of an interactive shell.**

  A bridge stands between the requests that address a session and the stream of its
  remote process.  In one turn it does the first of these that is possible: apply a
  terminal size, read output, write an input message.  A message is written completely
  before anything else happens.  Every read leaves as one chunk; the last chunk says
  how the session ended.
-/
import ClusterAgent.Cluster.Call
import ClusterAgent.Protocol.Envelope
import ClusterAgent.Session.Stream

namespace ClusterAgent.Session

open Cluster (TerminalSize)

/-- The stream of a shell: its output, its input, and the terminal sizes given to it. -/
structure Terminal where
  output : Source
  input : Sink
  /-- The sizes that were applied and not yet looked at. -/
  sizes : List TerminalSize
  takesSizes : Bool
deriving Repr, Inhabited

def Terminal.fresh : Terminal := ⟨Source.fresh, Sink.fresh, [], true⟩

/-- Applies a size; a terminal that takes none ignores it. -/
def Terminal.resize (t : Terminal) (size : TerminalSize) : Terminal :=
  if t.takesSizes then { t with sizes := t.sizes ++ [size] } else t

/-- What requests have handed to a shell and the bridge has not dealt with. -/
structure Inbox where
  inputs : List (List UInt8)
  sizes : List TerminalSize
  /-- The rest of the message that is being written. -/
  writing : List UInt8
deriving Repr, Inhabited

def Inbox.empty : Inbox := ⟨[], [], []⟩

namespace Shell

def closeNotice : List UInt8 := "\r\nconnection closed\r\n".toUTF8.toList

def inputRoom : Nat := 64

def sizeRoom : Nat := 8

/-- The last chunk of a session. -/
def lastChunk : Ending → List UInt8
  | .finished => closeNotice
  | .failed text => text.toUTF8.toList

/-- What one turn of a bridge does. -/
inductive Turn where
  | idle
  /-- Something was done; a read leaves these bytes. -/
  | went (inbox : Inbox) (terminal : Terminal) (read : List (List UInt8))
  | stopped (ending : Ending)

def writeOut (inbox : Inbox) (terminal : Terminal) (message : List UInt8) : Turn :=
  match terminal.input.write message with
  | .broken => .stopped (.failed Sink.brokenText)
  | .wrote left sink => .went { inbox with writing := left } { terminal with input := sink } []

def turn (inbox : Inbox) (terminal : Terminal) : Turn :=
  if inbox.writing ≠ [] then
    if terminal.input.isOpen ∧ Sink.room ≤ terminal.input.waiting.length then .idle
    else writeOut inbox terminal inbox.writing
  else
    match inbox.sizes with
    | size :: rest => .went { inbox with sizes := rest } (terminal.resize size) []
    | [] =>
      match terminal.output.read with
      | .bytes bytes rest => .went inbox { terminal with output := rest } [bytes]
      | .ended ending => .stopped ending
      | .nothing =>
        match inbox.inputs with
        | message :: rest => writeOut { inbox with inputs := rest } terminal message
        | [] => .idle

/-- What a bridge does until nothing can be done: the chunks that leave, and where it stands. -/
structure Run where
  chunks : List (List UInt8)
  inbox : Inbox
  terminal : Terminal
  ending : Option Ending

def run : Nat → Inbox → Terminal → Run
  | 0, inbox, terminal => ⟨[], inbox, terminal, none⟩
  | fuel + 1, inbox, terminal =>
    match turn inbox terminal with
    | .idle => ⟨[], inbox, terminal, none⟩
    | .stopped ending => ⟨[], inbox, terminal, some ending⟩
    | .went inbox terminal read =>
      let r := run fuel inbox terminal
      { r with chunks := read ++ r.chunks }

/-- A bound for the turns until nothing can be done: each size, each message and its rest, each
    piece of output and each cut of it. -/
def turns (inbox : Inbox) (terminal : Terminal) : Nat :=
  inbox.sizes.length + 2 * inbox.inputs.length + 2 * terminal.output.pieces.length +
    terminal.output.pieces.flatten.length / Source.readLimit + 4

/-- Takes turns until nothing can be done. -/
def pump (inbox : Inbox) (terminal : Terminal) : Run :=
  run (turns inbox terminal) inbox terminal

end Shell

end ClusterAgent.Session
