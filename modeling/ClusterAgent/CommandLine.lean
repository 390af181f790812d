/-
  ClusterAgent/CommandLine.lean
  =============================
  **The command line of the agent.**

  Four options say where the configuration comes from; they stand either alone or
  after a subcommand, each at most once.  Arguments are read from left to right and
  the first one that is wrong decides; a request for help or for the version is
  granted as soon as it is met.
-/
import ClusterAgent.Config.Display
import ClusterAgent.Config.Load

namespace ClusterAgent.CommandLine

/-- The values of the options. -/
structure Options where
  config : Option String
  serverUrl : Option String
  token : Option String
  kubeconfig : Option String
deriving DecidableEq, Repr, Inhabited

def Options.none : Options := ⟨.none, .none, .none, .none⟩

/-- An option by its name. -/
inductive Name where
  | config
  | serverUrl
  | token
  | kubeconfig
deriving DecidableEq, Repr

inductive Subcommand where
  | run
  | checkConfig
deriving DecidableEq, Repr

/-- What a help text is about. -/
inductive Topic where
  | program
  | subcommand (s : Subcommand)
  | help
deriving DecidableEq, Repr

inductive Request where
  | run (options : Options)
  | checkConfig (options : Options)
  | help (topic : Topic)
  | version
deriving DecidableEq, Repr

/-- Why a command line is wrong. -/
inductive UsageError where
  | unexpected (argument : String)
  | unknownSubcommand (name : String)
  | missingValue (name : Name)
  | repeated (name : Name)
  | unwantedValue (option : String)
deriving DecidableEq, Repr

/-! ### Names -/

def Name.text : Name → String
  | .config => "--config"
  | .serverUrl => "--server-url"
  | .token => "--token"
  | .kubeconfig => "--kubeconfig"

def Name.all : List Name := [.config, .serverUrl, .token, .kubeconfig]

def Name.ofText? (s : String) : Option Name := Name.all.find? (·.text = s)

def Subcommand.text : Subcommand → String
  | .run => "run"
  | .checkConfig => "check-config"

def Subcommand.ofText? (s : String) : Option Subcommand :=
  [Subcommand.run, .checkConfig].find? (·.text = s)

def Options.get (o : Options) : Name → Option String
  | .config => o.config
  | .serverUrl => o.serverUrl
  | .token => o.token
  | .kubeconfig => o.kubeconfig

def Options.put (o : Options) (value : String) : Name → Options
  | .config => { o with config := some value }
  | .serverUrl => { o with serverUrl := some value }
  | .token => { o with token := some value }
  | .kubeconfig => { o with kubeconfig := some value }

/-! ### Reading arguments -/

inductive Argument where
  /-- `--`, after which nothing is an option. -/
  | separator
  /-- A long option, perhaps with a value after an equals sign. -/
  | long (name : String) (value : Option String)
  | short (letters : List Char)
  | word (text : String)
deriving DecidableEq, Repr

/-- Splits an argument at its first equals sign. -/
def splitValue (cs : List Char) : String × Option String :=
  let name := cs.takeWhile (· ≠ '=')
  (String.ofList name, match cs.drop name.length with
    | _ :: value => some (String.ofList value)
    | [] => none)

/-- Says what an argument is; a single dash is a word. -/
def Argument.ofText (s : String) : Argument :=
  match s.toList with
  | ['-', '-'] => .separator
  | '-' :: '-' :: _ =>
    let (name, value) := splitValue s.toList
    .long name value
  | '-' :: c :: rest => .short (c :: rest)
  | _ => .word s

/-- Gives an option its value, unless it has one; a path is never blank. -/
def give (o : Options) (name : Name) (value : String) : Except UsageError Options :=
  if name = .config ∧ value = "" then .error (.missingValue name)
  else if (o.get name).isSome then .error (.repeated name)
  else .ok (o.put value name)

/-- Whether an argument can be the value of the option before it. -/
def Argument.isValue : Argument → Bool
  | .word _ => true
  | _ => false

/-- What follows from short options: help, or the version where it is known. -/
def shortRequest (knowsVersion : Bool) (topic : Topic) (argument : String) :
    List Char → Except UsageError Request
  | 'h' :: _ => .ok (.help topic)
  | 'V' :: _ => if knowsVersion then .ok .version else .error (.unexpected argument)
  | _ => .error (.unexpected argument)

def Subcommand.request (s : Subcommand) (o : Options) : Request :=
  match s with
  | .run => .run o
  | .checkConfig => .checkConfig o

def readOptions (s : Subcommand) (o : Options) : List String → Except UsageError Request
  | [] => .ok (s.request o)
  | arg :: rest =>
    match Argument.ofText arg with
    | .separator =>
      match rest with
      | [] => .ok (s.request o)
      | extra :: _ => .error (.unexpected extra)
    | .word w => .error (.unexpected w)
    | .short letters => shortRequest false (.subcommand s) arg letters
    | .long "--help" none => .ok (.help (.subcommand s))
    | .long "--help" (some _) => .error (.unwantedValue "--help")
    | .long text value =>
      match Name.ofText? text, value, rest with
      | none, _, _ => .error (.unexpected text)
      | some name, some value, rest => do readOptions s (← give o name value) rest
      | some name, none, value :: rest =>
        if (Argument.ofText value).isValue then do readOptions s (← give o name value) rest
        else .error (.missingValue name)
      | some name, none, [] => .error (.missingValue name)

/-- Reads what follows the subcommand that gives help: at most the name of a subcommand. -/
def readHelp : List String → Except UsageError Request
  | [] => .ok (.help .program)
  | name :: rest =>
    let topic? := if name = "help" then some Topic.help
      else (Subcommand.ofText? name).map .subcommand
    match topic?, rest with
    | none, _ => .error (.unknownSubcommand name)
    | some topic, [] => .ok (.help topic)
    | some _, extra :: _ => .error (.unknownSubcommand extra)

/-- Reads all arguments; once an option stands outside a subcommand, none may follow. -/
def readAll (o : Options) : List String → Except UsageError Request
  | [] => .ok (.run o)
  | arg :: rest =>
    match Argument.ofText arg with
    | .separator =>
      match rest with
      | [] => .ok (.run o)
      | extra :: _ => .error (.unexpected extra)
    | .word w =>
      if o ≠ Options.none then .error (.unexpected w)
      else
        match Subcommand.ofText? w with
        | some s => readOptions s Options.none rest
        | none => if w = "help" then readHelp rest else .error (.unknownSubcommand w)
    | .short letters => shortRequest true .program arg letters
    | .long "--help" none => .ok (.help .program)
    | .long "--version" none => .ok .version
    | .long "--help" (some _) => .error (.unwantedValue "--help")
    | .long "--version" (some _) => .error (.unwantedValue "--version")
    | .long text value =>
      match Name.ofText? text, value, rest with
      | none, _, _ => .error (.unexpected text)
      | some name, some value, rest => do readAll (← give o name value) rest
      | some name, none, value :: rest =>
        if (Argument.ofText value).isValue then do readAll (← give o name value) rest
        else .error (.missingValue name)
      | some name, none, [] => .error (.missingValue name)

/-! ### Texts -/

def versionLine : String := "kubetether 0.1.0\n"

def Topic.usage : Topic → String
  | .program => "Usage: kubetether [OPTIONS]\n       kubetether <COMMAND>\n"
  | .subcommand s => "Usage: kubetether " ++ s.text ++ " [OPTIONS]\n"
  | .help => "Usage: kubetether help [COMMAND]...\n"

def optionLines : String :=
  "Options:\n" ++
  "      --config <CONFIG>          Path to TOML config file\n" ++
  "      --server-url <SERVER_URL>  Control server base URL, e.g. `wss://control.example.com`\n" ++
  "      --token <TOKEN>            Token sent in the `token` header of the upgrade request\n" ++
  "      --kubeconfig <KUBECONFIG>  kubeconfig passed to kubectl\n" ++
  "  -h, --help                     Print help\n"

def Subcommand.about : Subcommand → String
  | .run => "Connect to the control server and serve requests (default)"
  | .checkConfig => "Load the configuration, print it and exit"

def Topic.helpText : Topic → String
  | .program =>
    "Cluster-side agent for a remote Kubernetes control server\n\n" ++ Topic.program.usage ++
    "\nCommands:\n  run           " ++ Subcommand.run.about ++
    "\n  check-config  " ++ Subcommand.checkConfig.about ++
    "\n  help          Print this message or the help of the given subcommand(s)\n\n" ++
    optionLines ++ "  -V, --version                  Print version\n"
  | .subcommand s => s.about ++ "\n\n" ++ (Topic.subcommand s).usage ++ "\n" ++ optionLines
  | .help =>
    "Print this message or the help of the given subcommand(s)\n\n" ++ Topic.help.usage ++
    "\nArguments:\n  [COMMAND]...  Print help for the subcommand(s)\n"

def UsageError.message : UsageError → String
  | .unexpected a => "error: unexpected argument '" ++ a ++ "' found"
  | .unknownSubcommand s => "error: unrecognized subcommand '" ++ s ++ "'"
  | .missingValue n => "error: a value is required for '" ++ n.text ++ "' but none was supplied"
  | .repeated n => "error: the argument '" ++ n.text ++ "' cannot be used multiple times"
  | .unwantedValue o => "error: unexpected value for '" ++ o ++ "' found; no more were expected"

/-! ### What the program does -/

/-- What a run of the program comes to. -/
inductive Outcome where
  | finished (status : Nat) (stdout stderr : String)
  | serving (config : Config)

def Options.load (o : Options) (read : String → Except Files.Fault (List UInt8))
    (env : String → Option String) : Except Config.LoadError Config :=
  (Config.load read env o.config).map (·.override ⟨o.serverUrl, o.token, o.kubeconfig⟩)

def failure (e : Config.LoadError) : Outcome :=
  .finished 1 "" ("kubetether: " ++ e.message ++ "\n")

def Request.outcome (r : Request) (read : String → Except Files.Fault (List UInt8))
    (env : String → Option String) : Outcome :=
  match r with
  | .help topic => .finished 0 topic.helpText ""
  | .version => .finished 0 versionLine ""
  | .checkConfig o =>
    match o.load read env with
    | .ok c => .finished 0 c.report ""
    | .error e => failure e
  | .run o =>
    match o.load read env with
    | .ok c => .serving c
    | .error e => failure e

def outcome (args : List String) (read : String → Except Files.Fault (List UInt8))
    (env : String → Option String) : Outcome :=
  match readAll Options.none args with
  | .ok r => r.outcome read env
  | .error e =>
    .finished 2 "" (e.message ++ "\n\n" ++ Topic.program.usage ++
      "\nFor more information, try '--help'.\n")

end ClusterAgent.CommandLine
