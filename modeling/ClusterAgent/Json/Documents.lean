/-
  ClusterAgent/Json/Documents.lean
  ================================
  **Reading documents that follow one another.**

  A stream holds documents with whitespace between them.  Lists, objects and
  strings show their own end; after a word or a number the next byte must be
  whitespace, or one that opens, closes or separates.  The result lists the
  documents that are complete and says what is left: the bytes of an unfinished
  document, or the news that something undecodable was met.
-/
import ClusterAgent.Json.Reading

namespace ClusterAgent.Json

/-- What a stream ends with. -/
inductive Tail where
  /-- The bytes of the document that is still unfinished, none between documents. -/
  | pending (bytes : List UInt8)
  | broken
deriving DecidableEq, Repr

/-- Where in a stream the reader stands. -/
inductive Cursor where
  | between
  /-- Within a document; its bytes so far, last first. -/
  | inside (seen : List UInt8) (r : Reading)
  /-- Right after a word, which the next byte must not continue. -/
  | afterWord (v : Json)

namespace Cursor

/-- The bytes that may follow a word or a number. -/
def mayFollow (b : UInt8) : Bool :=
  Reading.isSpace b || b == 0x22 || b == 0x5B || b == 0x5D || b == 0x7B || b == 0x7D ||
    b == 0x2C || b == 0x3A

/-- What one more byte does: the documents it completes, and where the reader stands then; `none`
    when the stream is broken. -/
structure Step where
  documents : List Json
  next : Option Cursor

def stepBetween (b : UInt8) : Option Cursor :=
  if Reading.isSpace b then some .between
  else
    match Reading.start.step none b with
    | .more r => some (.inside [b] r)
    | _ => none

def step (c : Cursor) (b : UInt8) : Step :=
  match c with
  | .between => ⟨[], stepBetween b⟩
  | .afterWord v => if mayFollow b then ⟨[v], stepBetween b⟩ else ⟨[], none⟩
  | .inside seen r =>
    match r.step none b with
    | .more r => ⟨[], some (.inside (b :: seen) r)⟩
    | .whole v true =>
      match v with
      | .null | .bool _ => ⟨[], some (.afterWord v)⟩
      | _ => ⟨[v], some .between⟩
    | .whole v false => if mayFollow b then ⟨[v], stepBetween b⟩ else ⟨[], none⟩
    | .stuck _ _ => ⟨[], none⟩

/-- What the end of the bytes means: the documents it completes, and what is left. -/
def finish : Cursor → List Json × Tail
  | .between => ([], .pending [])
  | .afterWord v => ([v], .pending [])
  | .inside seen r =>
    match r.finish with
    | .ok v => ([v], .pending [])
    | .error f => if f.isEnd then ([], .pending seen.reverse) else ([], .broken)

/-- Reads the documents of a stream from where the reader stands. -/
def scan (c : Cursor) : List UInt8 → List Json × Tail
  | [] => c.finish
  | b :: rest =>
    match c.step b with
    | ⟨documents, none⟩ => (documents, .broken)
    | ⟨documents, some c⟩ =>
      let (more, tail) := c.scan rest
      (documents ++ more, tail)

end Cursor

def documents (bytes : List UInt8) : List Json × Tail :=
  Cursor.between.scan bytes

end ClusterAgent.Json
