/-
  ClusterAgent/Config/Load.lean
  =============================
  **From a configuration file to the configuration.**

  A section is a table by field name, or an array of its fields in order.  Whatever
  is left out has its default, and whatever is unknown is passed over; a value of the
  wrong type is an error.  A date can stand for a section without fields.
-/
import ClusterAgent.Config.Basic
import ClusterAgent.Files
import ClusterAgent.Toml.Reader

namespace ClusterAgent.Config

open Toml (Fault Entries)

/-! ### Sections -/

/-- A field of a section with values of type `ρ`. -/
structure Field (ρ : Type) where
  name : String
  set : Toml → ρ → Except Fault ρ
  /-- Whether an array of the fields must reach this one. -/
  mustReach : Bool

def asText : Toml → Except Fault String
  | .string s => .ok s
  | _ => .error (.wrongType "string")

def asNat (greatest : Nat) : Toml → Except Fault Nat
  | .integer n => if 0 ≤ n ∧ n.toNat ≤ greatest then .ok n.toNat else .error (.wrongType "integer")
  | _ => .error (.wrongType "integer")

/-- A field that is read by `decode`. -/
def field {ρ α : Type} (name : String) (decode : Toml → Except Fault α) (put : α → ρ → ρ) :
    Field ρ :=
  ⟨name, fun v r => (decode v).map fun a => put a r, false⟩

def readTable {ρ : Type} (fields : List (Field ρ)) (zero : ρ) (entries : Entries) :
    Except Fault ρ :=
  fields.foldlM (fun r f =>
    match Toml.find? f.name entries with
    | some v => f.set v r
    | none => .ok r) zero

def readItems {ρ : Type} : List (Field ρ) → ρ → List Toml → Except Fault ρ
  | [], r, _ => .ok r
  | f :: fields, r, [] =>
    if f.mustReach then .error (.missingField f.name) else readItems fields r []
  | f :: fields, r, v :: items => do readItems fields (← f.set v r) items

def readSection {ρ : Type} (fields : List (Field ρ)) (zero : ρ) : Option Toml → Except Fault ρ
  | none => .ok zero
  | some (.table _ entries) => readTable fields zero entries
  | some (.array items) => readItems fields zero items
  | some (.elements tables) => readItems fields zero (tables.map (Toml.table .header))
  | some (.moment _) => .ok zero
  | some _ => .error (.wrongType "table")

/-! ### The fields -/

/-- The greatest number of a signed 64-bit word, which bounds every number in a file. -/
def wordMax : Nat := Nat.pow 2 63 - 1

def Server.fields : List (Field Server) := [
  field "url" asText fun v s => { s with url := v },
  field "path" asText fun v s => { s with path := v },
  field "token" asText fun v s => { s with token := v }]

def Transport.fields : List (Field Transport) := [
  field "reconnect_interval_secs" (asNat wordMax) fun v t => { t with reconnectSecs := v },
  field "heartbeat_interval_secs" (asNat wordMax) fun v t => { t with heartbeatSecs := v },
  field "outbound_queue_size" (asNat wordMax) fun v t => { t with outboundQueue := v },
  field "request_queue_size" (asNat wordMax) fun v t => { t with requestQueue := v }]

/-- The fields of the cluster section; an array must say whether it names a file and a context. -/
def Kubernetes.fields : List (Field Kubernetes) := [
  field "kubectl" asText fun v k => { k with kubectl := v },
  { field "kubeconfig" asText fun v k => { k with kubeconfig := some v } with mustReach := true },
  { field "context" asText fun v k => { k with context := some v } with mustReach := true },
  field "watch_restart_secs" (asNat wordMax) fun v k => { k with watchRestartSecs := v }]

def Sessions.fields : List (Field Sessions) := [
  field "log_tail_lines" (asNat (Nat.pow 2 32 - 1)) fun v s => { s with logTailLines := v }]

def Logging.fields : List (Field Logging) := [
  field "level" asText fun v l => { l with level := v }]

def ofEntries (entries : Entries) : Except Fault Config := do
  let part {ρ : Type} (name : String) (fields : List (Field ρ)) (zero : ρ) : Except Fault ρ :=
    readSection fields zero (Toml.find? name entries)
  return {
    server := ← part "server" Server.fields Server.default
    transport := ← part "transport" Transport.fields Transport.default
    kubernetes := ← part "kubernetes" Kubernetes.fields Kubernetes.default
    sessions := ← part "sessions" Sessions.fields Sessions.default
    logging := ← part "logging" Logging.fields Logging.default }

/-! ### Loading -/

/-- Why there is no configuration. -/
inductive LoadError where
  | read (path : String) (fault : Files.Fault)
  | parse (path : String) (fault : Fault)
deriving DecidableEq, Repr

def LoadError.message : LoadError → String
  | .read path f => "config read failed: " ++ path ++ ": " ++ f.message
  | .parse path f => "config parse failed: " ++ path ++ ": " ++ f.message

def defaultFile : String := "kubetether.toml"

def ofFile (path : String) (content : Except Files.Fault (List UInt8)) : Except LoadError Config :=
  match content with
  | .error f => .error (.read path f)
  | .ok bytes =>
    match String.fromUTF8? ⟨bytes.toArray⟩ with
    | none => .error (.read path .notText)
    | some text =>
      match (Toml.read text).bind ofEntries with
      | .ok c => .ok c
      | .error f => .error (.parse path f)

/-- The configuration of a file: a named one must be there, the default one need not. -/
def ofNamed (read : String → Except Files.Fault (List UInt8)) : Option String →
    Except LoadError Config
  | some path => ofFile path (read path)
  | none =>
    match read defaultFile with
    | .error .missing => .ok default
    | content => ofFile defaultFile content

/-- Loads the configuration: the environment comes over the file. -/
def load (read : String → Except Files.Fault (List UInt8)) (env : String → Option String)
    (path : Option String) : Except LoadError Config :=
  (ofNamed read path).map (·.override (Overrides.ofEnvironment env))

end ClusterAgent.Config
