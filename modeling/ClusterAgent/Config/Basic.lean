/-
  ClusterAgent/Config/Basic.lean
  ==============================
  **The configuration of the agent.**

  Five sections, each with a default for everything.  The environment comes over the
  file and the command line over both.
-/
namespace ClusterAgent

/-- The server that the agent connects to. -/
structure Config.Server where
  url : String
  /-- The path that is appended to the address. -/
  path : String
  /-- What the agent shows to the server; blank for nothing. -/
  token : String
deriving DecidableEq, Repr, Inhabited

/-- How connections are kept up, and how much may wait. -/
structure Config.Transport where
  reconnectSecs : Nat
  /-- The time between two heartbeats; zero for none. -/
  heartbeatSecs : Nat
  outboundQueue : Nat
  requestQueue : Nat
deriving DecidableEq, Repr, Inhabited

/-- How the cluster is reached. -/
structure Config.Kubernetes where
  kubectl : String
  kubeconfig : Option String
  context : Option String
  /-- How long a watch that ended rests before it starts again. -/
  watchRestartSecs : Nat
deriving DecidableEq, Repr, Inhabited

structure Config.Sessions where
  /-- How many lines of history a followed log starts with. -/
  logTailLines : Nat
deriving DecidableEq, Repr, Inhabited

/-- Settings for the log of the agent itself. -/
structure Config.Logging where
  level : String
deriving DecidableEq, Repr, Inhabited

structure Config where
  server : Config.Server
  transport : Config.Transport
  kubernetes : Config.Kubernetes
  sessions : Config.Sessions
  logging : Config.Logging
deriving DecidableEq, Repr, Inhabited

namespace Config

/-! ### Defaults -/

def Server.default : Server := ⟨"ws://127.0.0.1:8080", "/osp/kube/connect", ""⟩

def Transport.default : Transport := ⟨5, 30, 1024, 256⟩

def Kubernetes.default : Kubernetes := ⟨"kubectl", none, none, 5⟩

def Sessions.default : Sessions := ⟨100⟩

def Logging.default : Logging := ⟨"info"⟩

def default : Config :=
  ⟨Server.default, Transport.default, Kubernetes.default, Sessions.default, Logging.default⟩

/-! ### What comes over the file -/

/-- Values that come over configured ones. -/
structure Overrides where
  serverUrl : Option String
  token : Option String
  kubeconfig : Option String
deriving DecidableEq, Repr, Inhabited

def Overrides.ofEnvironment (lookup : String → Option String) : Overrides :=
  ⟨lookup "KUBETETHER_SERVER_URL", lookup "KUBETETHER_TOKEN", lookup "KUBETETHER_KUBECONFIG"⟩

def override (c : Config) (o : Overrides) : Config :=
  { c with
    server := { c.server with
      url := o.serverUrl.getD c.server.url
      token := o.token.getD c.server.token }
    kubernetes := { c.kubernetes with
      kubeconfig := o.kubeconfig.orElse fun _ => c.kubernetes.kubeconfig } }

/-! ### What follows from it -/

def Server.base (s : Server) : String :=
  String.ofList (s.url.toList.reverse.dropWhile (· == '/')).reverse

/-- The address to connect to: the path comes after exactly one slash. -/
def Server.connectUrl (s : Server) : String :=
  match s.path.toList with
  | [] => s.base
  | '/' :: _ => s.base ++ s.path
  | _ => s.base ++ "/" ++ s.path

def Transport.heartbeat? (t : Transport) : Option Nat :=
  if t.heartbeatSecs = 0 then none else some t.heartbeatSecs

end Config

end ClusterAgent
