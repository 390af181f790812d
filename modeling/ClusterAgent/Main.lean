/-
  ClusterAgent/Main.lean
  ======================
  **The program.**

  It gathers what the command line asks for: the configuration file and three
  variables of the environment.  Everything else is decided by `CommandLine.outcome`.
  It opens no connections, so it says so when it should serve requests.
-/
import ClusterAgent.CommandLine
import ClusterAgent.Tunnel.Launch

namespace ClusterAgent

def Files.Fault.ofError : IO.Error → Files.Fault
  | .noFileOrDirectory _ _ _ => .missing
  | .inappropriateType _ code details => ofCode code details
  | .permissionDenied _ code details => ofCode code details
  | .invalidArgument _ code details => ofCode code details
  | .otherError code details => ofCode code details
  | e => .other (toString e)
where
  ofCode (code : UInt32) (details : String) : Files.Fault :=
    if code = 20 then .notDirectory
    else if code = 21 then .isDirectory
    else if code = 36 then .nameTooLong
    else .other (details ++ " (os error " ++ toString code ++ ")")

def readFile (path : String) : IO (Except Files.Fault (List UInt8)) := do
  try
    let bytes ← IO.FS.readBinFile path
    return .ok bytes.toList
  catch e => return .error (Files.Fault.ofError e)

def configPath (args : List String) : String :=
  match CommandLine.readAll CommandLine.Options.none args with
  | .ok (.run o) => o.config.getD Config.defaultFile
  | .ok (.checkConfig o) => o.config.getD Config.defaultFile
  | _ => Config.defaultFile

def environmentNames : List String :=
  ["KUBETETHER_SERVER_URL", "KUBETETHER_TOKEN", "KUBETETHER_KUBECONFIG"]

end ClusterAgent

open ClusterAgent in
def main (args : List String) : IO UInt32 := do
  let content ← readFile (configPath args)
  let values ← environmentNames.mapM fun name => do return (name, ← IO.getEnv name)
  let env (name : String) : Option String := (values.find? (·.1 = name)).bind (·.2)
  match CommandLine.outcome args (fun _ => content) env with
  | .finished status stdout stderr =>
    IO.print stdout
    IO.eprint stderr
    return status.toUInt32
  | .serving c =>
    let outcome := match Tunnel.launch c.transport [(0, .start)] with
      | .ok _ => "connect failed: no network for " ++ c.server.connectUrl
      | .error _ => "tunnel task failed"
    IO.eprintln ("kubetether: " ++ outcome)
    return 1
