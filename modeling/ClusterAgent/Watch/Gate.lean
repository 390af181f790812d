/-
  ClusterAgent/Watch/Gate.lean
  ============================
  **The switch for change events.**

  Changes of the cluster are forwarded only while the gate is open; what arrives
  while it is closed is dropped and never replayed.  A request opens or closes it.
-/
import ClusterAgent.Outbound

namespace ClusterAgent.Watch

/-- The parameters of a gate request. -/
structure SetParams where
  action : String
deriving DecidableEq, Repr, Inhabited

def SetParams.schema : Json.Schema SetParams where
  zero := ⟨""⟩
  fields := [⟨"action", String, Json.asString, action, fun v _ => ⟨v⟩⟩]

/-- A gate, closed at first. -/
structure Gate where
  isOpen : Bool
deriving DecidableEq, Repr, Inhabited

namespace Gate

/-- The gate before the first request. -/
def closed : Gate := ⟨false⟩

/-- What a gate request asks for, or the answer that refuses it. -/
def requested (params : Json) : Except Response Bool :=
  match (SetParams.schema.decodeLenient params).action with
  | "" => .error (Response.error .paramsError "Action param is blank")
  | "open" => .ok true
  | "close" => .ok false
  | _ => .error (Response.error .paramsError "Action param is not valid")

def accepted : Response :=
  Response.okWithMessage "Action watch resource success"

def setWatch (g : Gate) (params : Json) : Gate × Response :=
  match requested params with
  | .ok isOpen => (⟨isOpen⟩, accepted)
  | .error refusal => (g, refusal)

/-- The envelopes that a change causes: one if the gate is open, none otherwise. -/
def pass (g : Gate) (e : ChangeEvent) : List Envelope :=
  if g.isOpen then [Envelope.watch e] else []

/-- Forwards a change to the queue if the gate is open. -/
def forward (g : Gate) (o : Outbound) (e : ChangeEvent) : Outbound :=
  o.sendAll (g.pass e)

end Gate

end ClusterAgent.Watch
