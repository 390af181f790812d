/-
  ClusterAgent/Protocol/Envelope.lean
  ===================================
  **Frames that leave the agent.**

  Four streams share one connection: replies to requests, change events, and the
  output of shells and logs.  An envelope says which stream it belongs to and
  which request or session; a piece of session output is base64 text.
-/
import ClusterAgent.Protocol.Response
import ClusterAgent.Json.Reader
import ClusterAgent.Json.Writer
import ClusterAgent.Text.Base64

namespace ClusterAgent

/-- The stream that an envelope belongs to. -/
inductive Channel where
  | request
  | watch
  | exec
  | log
deriving DecidableEq, Repr, Inhabited

namespace Channel

def name : Channel → String
  | .request => "request"
  | .watch => "watch"
  | .exec => "exec"
  | .log => "log"

def ofName? (s : String) : Option Channel :=
  [Channel.request, .watch, .exec, .log].find? (·.name == s)

end Channel

/-- How an object of the cluster changed. -/
inductive Change where
  | add
  | update
  | delete
deriving DecidableEq, Repr, Inhabited

namespace Change

def name : Change → String
  | .add => "add"
  | .update => "update"
  | .delete => "delete"

def ofName? (s : String) : Option Change :=
  [Change.add, .update, .delete].find? (·.name == s)

end Change

/-- A change of one object, labelled with its kind. -/
structure ChangeEvent where
  change : Change
  label : String
  object : Json
deriving DecidableEq, Repr, Inhabited

/-- The event as a JSON object, keys in order. -/
def ChangeEvent.toJson (e : ChangeEvent) : Json :=
  .object [("event", .string e.change.name), ("obj", .string e.label), ("resource", e.object)]

structure Envelope where
  channel : Channel
  requestId : String
  data : Json
deriving DecidableEq, Repr, Inhabited

namespace Envelope

/-! ### Making envelopes -/

def response (requestId : String) (r : Response) : Envelope :=
  ⟨.request, requestId, r.toJson⟩

/-- A change event; it answers no request. -/
def watch (e : ChangeEvent) : Envelope :=
  ⟨.watch, "", e.toJson⟩

def chunk (channel : Channel) (session : String) (bytes : List UInt8) : Envelope :=
  ⟨channel, session, .string (Text.Base64.encode bytes)⟩

def exec (session : String) (bytes : List UInt8) : Envelope :=
  chunk .exec session bytes

def log (session : String) (bytes : List UInt8) : Envelope :=
  chunk .log session bytes

/-! ### Looking inside -/

/-- The bytes of a piece of session output. -/
def chunkBytes? (e : Envelope) : Option (List UInt8) :=
  e.data.text?.bind Text.Base64.decode?

def response? (e : Envelope) : Option Response :=
  if e.channel = .request then Response.ofJson? e.data else none

/-! ### On the wire -/

/-- The fields of an envelope in wire order. -/
def fields (e : Envelope) : List (String × Json) :=
  [("res_type", .string e.channel.name), ("request_id", .string e.requestId), ("data", e.data)]

def render (e : Envelope) : String :=
  (Json.object e.fields).render

def toJson (e : Envelope) : Json :=
  Json.ofFields e.fields

def ofParts? (channel requestId data : Json) : Option Envelope := do
  some ⟨← Json.asName Channel.ofName? channel, ← Json.asString requestId, data⟩

/-- The envelope that a value is; no part may be missing. -/
def ofJson? : Json → Option Envelope
  | .object fields => do
    ofParts? (← Json.find? "res_type" fields) (← Json.find? "request_id" fields)
      (← Json.find? "data" fields)
  | .array [channel, requestId, data] => ofParts? channel requestId data
  | _ => none

def ofFrame? (frame : List UInt8) : Option Envelope :=
  match Json.readRecord ["res_type", "request_id", "data"] frame with
  | .ok j => ofJson? j
  | .error _ => none

end Envelope

end ClusterAgent
