/-
  ClusterAgent/Protocol/Response.lean
  ===================================
  **Results of requests.**

  A response carries a symbolic code, a message and data.  Any code other than
  `success` says which kind of failure ended the request.
-/
import ClusterAgent.Json.Record

namespace ClusterAgent

/-- The outcome of a request. -/
inductive Code where
  | success
  | paramsError
  | getError
  | listError
  /-- A change was rejected, or met too many conflicts. -/
  | updateError
  | deleteError
  | marshalError
  /-- No handler is registered for the resource and action. -/
  | actionError
  /-- A handler came to no result of its own. -/
  | unknownError
deriving DecidableEq, Repr, Inhabited

namespace Code

def all : List Code :=
  [.success, .paramsError, .getError, .listError, .updateError, .deleteError, .marshalError,
    .actionError, .unknownError]

def name : Code → String
  | .success => "Success"
  | .paramsError => "ParamsError"
  | .getError => "GetError"
  | .listError => "ListError"
  | .updateError => "UpdateError"
  | .deleteError => "DeleteError"
  | .marshalError => "MarshalError"
  | .actionError => "ActionError"
  | .unknownError => "UnknownError"

def ofName? (s : String) : Option Code :=
  all.find? (·.name == s)

end Code

/-- The result of a request. -/
structure Response where
  code : Code
  msg : String
  data : Json
deriving DecidableEq, Repr, Inhabited

namespace Response

def success (data : Json) : Response := ⟨.success, "Success", data⟩

def ok : Response := success .null

def okWithMessage (msg : String) : Response := ⟨.success, msg, .null⟩

def error (code : Code) (msg : String) : Response := ⟨code, msg, .null⟩

def isSuccess (r : Response) : Bool := r.code == .success

/-- The response as a JSON object, keys in order. -/
def toJson (r : Response) : Json :=
  .object [("code", .string r.code.name), ("data", r.data), ("msg", .string r.msg)]

/-- The response that a value is.  Code and message must be there; data may be missing. -/
def ofJson? : Json → Option Response
  | .object fields => do
    let code ← Json.find? "code" fields
    let msg ← Json.find? "msg" fields
    some ⟨← Json.asName Code.ofName? code, ← Json.asString msg,
      (Json.find? "data" fields).getD .null⟩
  | .array [code, msg] => do
    some ⟨← Json.asName Code.ofName? code, ← Json.asString msg, .null⟩
  | .array [code, msg, data] => do
    some ⟨← Json.asName Code.ofName? code, ← Json.asString msg, data⟩
  | _ => none

end Response

end ClusterAgent
