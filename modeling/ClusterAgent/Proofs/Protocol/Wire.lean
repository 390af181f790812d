/-
  ClusterAgent/Proofs/Protocol/Wire.lean
  ======================================
  **An envelope survives the wire.**

  A reply, a change event or a piece of output is put into an envelope, written as a text
  and read at the other end.  The three fields of an envelope are read as a record, and
  what was put in is found again: the response of a reply, the bytes of a piece of output
  (`wire_round_trip`).
-/
import ClusterAgent.Proofs.Json.RoundTrip
import ClusterAgent.Proofs.Text.Base64
import ClusterAgent.Protocol.Envelope

namespace ClusterAgent

open Json (Sendable Sorted)

/-! ### Names -/

@[simp] theorem Code.ofName?_name (code : Code) : Code.ofName? code.name = some code := by
  cases code <;> decide

@[simp] theorem Channel.ofName?_name (channel : Channel) :
    Channel.ofName? channel.name = some channel := by
  cases channel <;> decide

/-! ### Responses and events -/

theorem Response.ofJson?_toJson (r : Response) : Response.ofJson? r.toJson = some r := by
  simp [Response.ofJson?, Response.toJson, Json.find?, Json.asName, Json.asString]

/-- The order of fields is that of their keys. -/
theorem sorted_of_keys {fields : List (String × Json)} (keys : List String)
    (h : fields.map (·.1) = keys) (hkeys : keys.Pairwise (· < ·)) : Sorted fields := by
  subst h
  exact List.pairwise_map.mp hkeys

theorem Response.sendable_toJson {depth : Nat} {r : Response} (h : Sendable depth r.data) :
    Sendable (depth + 1) r.toJson := by
  apply Sendable.object
  · exact sorted_of_keys ["code", "data", "msg"] rfl (by decide)
  · intro field hfield
    simp only [List.mem_cons, List.not_mem_nil, or_false] at hfield
    rcases hfield with rfl | rfl | rfl
    · exact .string _ _
    · exact h
    · exact .string _ _

theorem ChangeEvent.sendable_toJson {depth : Nat} {e : ChangeEvent} (h : Sendable depth e.object) :
    Sendable (depth + 1) e.toJson := by
  apply Sendable.object
  · exact sorted_of_keys ["event", "obj", "resource"] rfl (by decide)
  · intro field hfield
    simp only [List.mem_cons, List.not_mem_nil, or_false] at hfield
    rcases hfield with rfl | rfl | rfl
    · exact .string _ _
    · exact .string _ _
    · exact h

namespace Envelope

theorem ofJson?_toJson (e : Envelope) : ofJson? e.toJson = some e := by
  simp [toJson, fields, Json.ofFields, ofJson?, Json.find?_insert_of_ne, ofParts?, Json.asName,
    Json.asString]

/-- An envelope is read back from its text. -/
theorem ofFrame?_render {e : Envelope} (h : Sendable 126 e.data) :
    ofFrame? e.render.toUTF8.toList = some e := by
  have hvalues : ∀ field ∈ e.fields, Sendable 126 field.2 := by
    intro field hfield
    simp only [fields, List.mem_cons, List.not_mem_nil, or_false] at hfield
    rcases hfield with rfl | rfl | rfl
    · exact .string _ _
    · exact .string _ _
    · exact h
  have hnames : ∀ field ∈ e.fields, field.1 ∈ ["res_type", "request_id", "data"] := by
    intro field hfield
    exact List.mem_map_of_mem hfield
  have hnodup : (e.fields.map (·.1)).Nodup := by
    change ["res_type", "request_id", "data"].Nodup
    decide
  have hne : e.fields ≠ [] := List.cons_ne_nil _ _
  have hread := Json.readRecord_write hne hnames hnodup hvalues
  unfold ofFrame? render
  split
  · rename_i j hj
    rw [hj] at hread
    rw [Option.some.inj hread]
    exact ofJson?_toJson e
  · rename_i f hf
    rw [hf] at hread
    cases hread

end Envelope

/-! ### What is put into envelopes -/

/-- What the agent sends. -/
inductive Message where
  | reply (requestId : String) (r : Response)
  | event (e : ChangeEvent)
  | shellOutput (session : String) (bytes : List UInt8)
  | logOutput (session : String) (bytes : List UInt8)

namespace Message

def envelope : Message → Envelope
  | .reply requestId r => .response requestId r
  | .event e => .watch e
  | .shellOutput session bytes => .exec session bytes
  | .logOutput session bytes => .log session bytes

/-- The data of a response and the object of an event are what can be read back. -/
def Fits : Message → Prop
  | .reply _ r => Sendable 125 r.data
  | .event e => Sendable 125 e.object
  | .shellOutput _ _ | .logOutput _ _ => True

def response? : Message → Option Response
  | .reply _ r => some r
  | .event _ | .shellOutput _ _ | .logOutput _ _ => none

def bytes? : Message → Option (List UInt8)
  | .shellOutput _ bytes | .logOutput _ bytes => some bytes
  | .reply _ _ | .event _ => none

theorem Fits.sendable {m : Message} (h : m.Fits) : Sendable 126 m.envelope.data := by
  cases m with
  | reply requestId r => exact Response.sendable_toJson h
  | event e => exact ChangeEvent.sendable_toJson h
  | shellOutput session bytes | logOutput session bytes => exact .string _ _

/-- A response is found in the envelope of a reply and in no other. -/
theorem response?_envelope (m : Message) : m.envelope.response? = m.response? := by
  cases m with
  | reply requestId r => exact Response.ofJson?_toJson r
  | event e | shellOutput session bytes | logOutput session bytes => rfl

end Message

/-- **An envelope survives the wire.**  A reply with any response, a change event or a piece of output
    is written as a text; the strings in it are any, its integers are words, signed or unsigned, and
    its data has 125 levels of lists and objects at most.  The text is read as the same envelope.
    If that envelope belongs to the stream of replies, it holds the response that was put in, and if
    not, none; from a piece of output the bytes are found that were put in. -/
theorem wire_round_trip (m : Message) (h : m.Fits) :
    ∃ e, Envelope.ofFrame? m.envelope.render.toUTF8.toList = some e ∧ e = m.envelope ∧
      e.response? = m.response? ∧ (e.response?.isSome ↔ e.channel = .request) ∧
      (e.channel = .exec ∨ e.channel = .log →
        ∃ bytes, m.bytes? = some bytes ∧ e.chunkBytes? = some bytes) := by
  refine ⟨m.envelope, Envelope.ofFrame?_render h.sendable, rfl, m.response?_envelope, ?_, ?_⟩
  · rw [m.response?_envelope]
    cases m with
    | reply requestId r => exact ⟨fun _ => rfl, fun _ => rfl⟩
    | event e | shellOutput session bytes | logOutput session bytes => exact ⟨nofun, nofun⟩
  · intro hchannel
    cases m with
    | shellOutput session bytes | logOutput session bytes =>
      exact ⟨bytes, rfl, Envelope.chunkBytes?_chunk _ _ _⟩
    | reply requestId r | event e =>
      rcases hchannel with hchannel | hchannel
      · cases hchannel
      · cases hchannel

/-- A reply with characters that are escaped and others that take several bytes, and with the least
    and the greatest integer. -/
def hardReply : Response :=
  ⟨.updateError, "a \"quote\"\n\x01é", .object [
    ("bounds", .array [.int (-9223372036854775808), .int 18446744073709551615, .object []]),
    ("ß", .string "\\😀")]⟩

theorem wire_round_trip_of_reply :
    let m := Message.reply "7\t😀" hardReply
    m.Fits ∧ ∃ e, Envelope.ofFrame? m.envelope.render.toUTF8.toList = some e ∧
      e.requestId = "7\t😀" ∧ e.response? = some hardReply := by
  intro m
  have hfits : m.Fits := by
    apply Sendable.object
    · exact sorted_of_keys ["bounds", "ß"] rfl (by decide)
    · intro field hfield
      simp only [List.mem_cons, List.not_mem_nil, or_false] at hfield
      rcases hfield with rfl | rfl
      · apply Sendable.array
        intro v hv
        simp only [List.mem_cons, List.not_mem_nil, or_false] at hv
        rcases hv with rfl | rfl | rfl
        · exact .int _ _ (by decide) (by decide)
        · exact .int _ _ (by decide) (by decide)
        · exact .object _ _ .nil nofun
      · exact .string _ _
  obtain ⟨e, he, hsame, hresponse, -, -⟩ := wire_round_trip m hfits
  exact ⟨hfits, e, he, hsame ▸ rfl, hresponse⟩

end ClusterAgent
