/-
  ClusterAgent/Protocol/Request.lean
  ==================================
  **Requests of the control server.**

  A request names a resource kind and an action, carries an identifier that the
  reply repeats verbatim, and parameters whose shape is the business of the
  handler.  Every field may be missing.
-/
import ClusterAgent.Json.Record
import ClusterAgent.Json.Reader

namespace ClusterAgent

structure Request where
  resource : String
  action : String
  requestId : String
  params : Json
deriving DecidableEq, Repr, Inhabited

namespace Request

/-- The fields of a request, in the order of its list form. -/
def schema : Json.Schema Request where
  zero := ⟨"", "", "", .null⟩
  fields := [
    ⟨"resource", String, Json.asString, resource, fun v r => { r with resource := v }⟩,
    ⟨"action", String, Json.asString, action, fun v r => { r with action := v }⟩,
    ⟨"request_id", String, Json.asString, requestId, fun v r => { r with requestId := v }⟩,
    ⟨"params", Json, some, params, fun v r => { r with params := v }⟩]

def fieldNames : List String :=
  schema.fields.map (·.name)

def ofFrame? (frame : List UInt8) : Option Request :=
  match Json.readRecord fieldNames frame with
  | .ok j => schema.decode j
  | .error _ => none

end Request

end ClusterAgent
