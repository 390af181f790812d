/-
  ClusterAgent/Config/Display.lean
  ================================
  **The configuration as it is shown.**

  Every field stands on a line of its own, indented by four blanks per level, with its
  text in quotes.  A token is never shown.
-/
import ClusterAgent.Config.Basic
import ClusterAgent.Text.Quoted

namespace ClusterAgent.Config

/-- Something to show: a line, or a block of labelled parts between two brackets. -/
inductive Layout where
  | line (text : String)
  | block (opening : String) (parts : List (String × Layout)) (closing : String)

def indent (level : Nat) : String := String.ofList (List.replicate (4 * level) ' ')

mutual

/-- The text of a layout whose first line is indented already. -/
def Layout.render (level : Nat) : Layout → String
  | .line text => text
  | .block opening parts closing =>
    opening ++ "\n" ++ renderParts (level + 1) parts ++ indent level ++ closing

def renderParts (level : Nat) : List (String × Layout) → String
  | [] => ""
  | (label, part) :: rest =>
    indent level ++ label ++ part.render level ++ ",\n" ++ renderParts level rest

end

/-! ### Parts -/

def showText (s : String) : Layout := .line (Text.quoted s)

def showNat (n : Nat) : Layout := .line (toString n)

def showOption : Option String → Layout
  | none => .line "None"
  | some s => .block "Some(" [("", showText s)] ")"

def showRecord (name : String) (fields : List (String × Layout)) : Layout :=
  .block (name ++ " \x7b") (fields.map fun (label, part) => (label ++ ": ", part)) "\x7d"

def layout (c : Config) : Layout :=
  showRecord "Config" [
    ("server", showRecord "ServerConfig" [
      ("url", showText c.server.url),
      ("path", showText c.server.path),
      ("token", showText c.server.token)]),
    ("transport", showRecord "TransportConfig" [
      ("reconnect_interval_secs", showNat c.transport.reconnectSecs),
      ("heartbeat_interval_secs", showNat c.transport.heartbeatSecs),
      ("outbound_queue_size", showNat c.transport.outboundQueue),
      ("request_queue_size", showNat c.transport.requestQueue)]),
    ("kubernetes", showRecord "KubernetesConfig" [
      ("kubectl", showText c.kubernetes.kubectl),
      ("kubeconfig", showOption c.kubernetes.kubeconfig),
      ("context", showOption c.kubernetes.context),
      ("watch_restart_secs", showNat c.kubernetes.watchRestartSecs)]),
    ("sessions", showRecord "SessionsConfig" [
      ("log_tail_lines", showNat c.sessions.logTailLines)]),
    ("logging", showRecord "LoggingConfig" [
      ("level", showText c.logging.level)])]

def redacted (c : Config) : Config :=
  if c.server.token = "" then c else { c with server := { c.server with token := "<redacted>" } }

/-- What is printed of a configuration: its fields and the address to connect to. -/
def report (c : Config) : String :=
  c.redacted.layout.render 0 ++ "\nconnect url: " ++ c.server.connectUrl ++ "\n"

end ClusterAgent.Config
