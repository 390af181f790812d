/-
  ClusterAgent/Tunnel/Dial.lean
  =============================
  **What is checked before the server is called.**

  A dial needs an address with a known scheme and a host, and a token that a header
  can carry.  If either is missing no connection is tried.
-/
import ClusterAgent.Text.Digits

namespace ClusterAgent.Tunnel

inductive DialError where
  | badAddress (url : String)
  | badToken
  /-- The server was called and did not answer. -/
  | unreachable
deriving DecidableEq, Repr, Inhabited

/-- What the server gets to see of a dial. -/
structure Handshake where
  /-- What is asked for; at least a slash. -/
  path : String
  token : String
deriving DecidableEq, Repr, Inhabited

/-- Whether a header can carry a character: only control characters other than tab are refused. -/
def isHeaderChar (c : Char) : Bool := c == '\t' || (' ' ≤ c && c != '\x7f')

def afterScheme? (url : List Char) : Option (List Char) :=
  let strip (scheme : String) : Option (List Char) :=
    if scheme.toList.isPrefixOf url then some (url.drop scheme.length) else none
  (strip "ws://").orElse fun _ => strip "wss://"

def endsHost (c : Char) : Bool := c == '/' || c == '?' || c == '#'

/-- Whether a host comes with a name, and with a port that is a number if there is one. -/
def isHost (host : List Char) : Bool :=
  let name := host.takeWhile (· ≠ ':')
  !name.isEmpty && name.all (fun c => c > ' ' && c != '\x7f') &&
    match host.drop name.length with
    | _ :: port => port.all Char.isDigit
    | [] => true

def pathOf (rest : List Char) : String :=
  let target := (rest.dropWhile (!endsHost ·)).takeWhile (· ≠ '#')
  match target with
  | '/' :: _ => String.ofList target
  | _ => String.ofList ('/' :: target)

def handshake (url token : String) : Except DialError Handshake :=
  match afterScheme? url.toList with
  | none => .error (.badAddress url)
  | some rest =>
    if !isHost (rest.takeWhile (!endsHost ·)) then .error (.badAddress url)
    else if !token.toList.all isHeaderChar then .error .badToken
    else .ok ⟨pathOf rest, token⟩

end ClusterAgent.Tunnel
