/-
  ClusterAgent/Watch/Decoder.lean
  ===============================
  **Change events out of a stream of documents.**

  The cluster tool prints one JSON document per change.  Its output arrives in
  pieces that need not end where a document ends: the decoder keeps the bytes of
  the unfinished document for the next piece.  Undecodable output discards
  everything that is buffered.
-/
import ClusterAgent.Json.Documents
import ClusterAgent.Protocol.Envelope

namespace ClusterAgent.Watch

/-- The bytes of the document that is still unfinished. -/
structure Decoder where
  pending : List UInt8
deriving DecidableEq, Repr, Inhabited

namespace Decoder

def fresh : Decoder := ⟨[]⟩

/-- Takes a piece of the stream and returns the documents that it completes. -/
def push (d : Decoder) (piece : List UInt8) : List Json × Decoder :=
  match Json.documents (d.pending ++ piece) with
  | (documents, .pending bytes) => (documents, ⟨bytes⟩)
  | (documents, .broken) => (documents, fresh)

/-- Takes several pieces in order and returns the documents of each. -/
def pushAll (d : Decoder) : List (List UInt8) → List (List Json) × Decoder
  | [] => ([], d)
  | p :: rest =>
    let (documents, d) := d.push p
    let (more, d) := d.pushAll rest
    (documents :: more, d)

end Decoder

/-- The change that a document tells: its type names the change, and the object comes with it.
    Bookmarks, error reports and documents without type or object tell none. -/
def change? (document : Json) : Option (Change × Json) := do
  let change ← match (document.field? "type").bind Json.text? with
    | some "ADDED" => some Change.add
    | some "MODIFIED" => some .update
    | some "DELETED" => some .delete
    | _ => none
  let object ← document.field? "object"
  some (change, object)

end ClusterAgent.Watch
