/-
  ClusterAgent/Handler/Objects.lean
  =================================
  **The actions that every kind of object shares.**

  Objects are listed, read, deleted and stored; scaling sets a replica count where
  the kind has one.  Reading, deleting and scaling name their object; storing
  completes the given document with the name and the namespace that it lacks.
-/
import ClusterAgent.Handler.Params
import ClusterAgent.Handler.Retry
import ClusterAgent.Yaml.Printer
import ClusterAgent.Yaml.Reader

namespace ClusterAgent.Handler

open Cluster (Failure objectName)

/-- The answer to a request that lacks a name or, for a namespaced kind, a namespace. -/
def checkTarget (kind : Kind) (name ns : String) : Option Response :=
  if name = "" then some (Response.error .paramsError (kind.display ++ " name is blank"))
  else if kind.namespaced ∧ ns = "" then some (Response.error .paramsError "Namespace is blank")
  else none

/-! ### Listing, reading and deleting -/

/-- Lists the objects whose name contains the given one, in one namespace or in all. -/
def list (kind : Kind) : Handler := fun params =>
  let p := ListParams.schema.decodeLenient params
  let ns := if p.ns = "" then none else some p.ns
  .ask (.cluster (.list kind ns)) fun (reply : Except Failure (List Json)) =>
    match reply with
    | .ok objects =>
      let named := objects.filter fun o => Text.mentions (objectName o) p.name
      .done (Response.success (.array named))
    | .error f => .done (Response.error .listError f.message)

def get (kind : Kind) : Handler := fun params =>
  let p := GetParams.schema.decodeLenient params
  match checkTarget kind p.name p.ns with
  | some refusal => .done refusal
  | none =>
    .ask (.cluster (.get kind p.ns p.name)) fun (reply : Except Failure Json) =>
      match reply with
      | .ok object =>
        .done (Response.success (if p.output = "yaml" then .string (Yaml.print object) else object))
      | .error f => .done (Response.error .getError f.message)

/-- Deletes objects in order and stops at the first failure. -/
def deleteAll (kind : Kind) : List DeleteTarget → Program Response
  | [] => .done Response.ok
  | t :: rest =>
    .ask (.cluster (.delete kind t.ns t.name)) fun (reply : Except Failure Unit) =>
      match reply with
      | .ok _ => deleteAll kind rest
      | .error f =>
        .done (Response.error .deleteError ("Delete " ++ t.name ++ " error: " ++ f.message))

def delete (kind : Kind) : Handler := fun params =>
  deleteAll kind (DeleteParams.schema.decodeLenient params).resources

/-! ### Storing a document -/

/-- Why a document cannot be stored. -/
inductive DocumentFault where
  | unreadable (fault : Yaml.Fault)
  | notMapping
  | metadataNotMapping
deriving DecidableEq, Repr

def DocumentFault.message : DocumentFault → String
  | .unreadable f => "Parse yaml error: " ++ f.message
  | .notMapping => "Parse yaml error: not a mapping"
  | .metadataNotMapping => "Parse yaml error: metadata is not a mapping"

/-- The metadata of an object with these fields; nothing if there are none yet. -/
def metadata? (fields : List (String × Json)) : Option (List (String × Json)) :=
  match Json.find? "metadata" fields with
  | none => some []
  | some (.object metadata) => some metadata
  | some _ => none

/-- Adds the name if the document has none, or a blank one. -/
def completeName (name : String) (metadata : List (String × Json)) : List (String × Json) :=
  let own := ((Json.find? "name" metadata).bind Json.text?).getD ""
  if own = "" ∧ name ≠ "" then Json.insert "name" (.string name) metadata else metadata

/-- Adds the namespace if the kind has namespaces and the document says nothing about one. -/
def completeNamespace (kind : Kind) (ns : String) (metadata : List (String × Json)) :
    List (String × Json) :=
  if kind.namespaced ∧ Json.find? "namespace" metadata = none ∧ ns ≠ "" then
    Json.insert "namespace" (.string ns) metadata
  else metadata

/-- The object to store: the fields of the document and its completed metadata. -/
structure Document where
  fields : List (String × Json)
  metadata : List (String × Json)
deriving DecidableEq, Repr

def Document.withMetadata (d : Document) (metadata : List (String × Json)) : Json :=
  .object (Json.insert "metadata" (.object metadata) d.fields)

/-- The object to offer: after a conflict it takes over the version of the latest one. -/
def Document.offer (d : Document) (latest : Option Json) : Json :=
  match latest with
  | none => d.withMetadata d.metadata
  | some latest =>
    let version := (latest.at? ["metadata", "resourceVersion"]).getD .null
    d.withMetadata (Json.insert "resourceVersion" version d.metadata)

def Document.ofParams (kind : Kind) (p : YamlParams) : Except DocumentFault Document :=
  match Yaml.read p.yaml with
  | .error f => .error (.unreadable f)
  | .ok (.object fields) =>
    match metadata? fields with
    | some metadata => .ok ⟨fields, completeNamespace kind p.ns (completeName p.name metadata)⟩
    | none => .error .metadataNotMapping
  | .ok _ => .error .notMapping

def updateResponse : Except UpdateFailure Json → Response
  | .ok _ => Response.ok
  | .error failure => failure.response

def updateYaml (kind : Kind) : Handler := fun params =>
  let p := YamlParams.schema.decodeLenient params
  match Document.ofParams kind p with
  | .error fault => .done (Response.error .paramsError fault.message)
  | .ok document =>
    (retryOnConflict kind p.ns document.offer).bind fun result => .done (updateResponse result)

/-! ### Scaling -/

/-- The object with a replica count, if it is a mapping whose specification is one or is missing. -/
def withReplicas (replicas : Int) (object : Json) : Json :=
  match object with
  | .object fields =>
    match (Json.find? "spec" fields).getD (.object []) with
    | .object spec =>
      .object (Json.insert "spec" (.object (Json.insert "replicas" (.int replicas) spec)) fields)
    | _ => object
  | _ => object

/-- The object to offer when scaling: the latest version, changed only for kinds that scale. -/
def scaled (kind : Kind) (replicas : Int) (first : Json) (latest : Option Json) : Json :=
  let object := latest.getD first
  if kind.scales then withReplicas replicas object else object

/-- Sets the replica count of an object; a kind without one is written back as it is. -/
def updateObj (kind : Kind) : Handler := fun params =>
  let p := ScaleParams.schema.decodeLenient params
  match checkTarget kind p.name p.ns with
  | some refusal => .done refusal
  | none =>
    if p.replicas < 1 then .done (Response.error .paramsError "Replicas is less than 1")
    else
      .ask (.cluster (.get kind p.ns p.name)) fun (reply : Except Failure Json) =>
        match reply with
        | .error f => .done (UpdateFailure.reading f).response
        | .ok first =>
          (retryOnConflict kind p.ns (scaled kind p.replicas first)).bind fun result =>
            .done (updateResponse result)

/-! ### The handlers of a kind -/

def ofAction? (kind : Kind) : Action → Option Handler
  | .list => some (list kind)
  | .get => some (get kind)
  | .delete => some (delete kind)
  | .updateYaml => some (updateYaml kind)
  | .updateObj => some (updateObj kind)
  | .exec | .stdin | .openLog | .closeLog => none

end ClusterAgent.Handler
