/-
  ClusterAgent/Json/Reader.lean
  =============================
  **Reading one document from a whole text.**

  The text must hold one document with nothing but whitespace around it.  A
  failure names the place: the bytes up to and including the one that cannot
  stand there, or the end of the text.
-/
import ClusterAgent.Json.Reading

namespace ClusterAgent.Json

/-- Checks that only whitespace is left; `seen` holds the bytes before, last first. -/
def onlySpace (v : Json) (seen : List UInt8) : List UInt8 → Except Failure Json
  | [] => .ok v
  | b :: rest =>
    if Reading.isSpace b then onlySpace v (b :: seen) rest
    else .error (Failure.after .trailingCharacters (b :: seen).reverse)

/-- Feeds the machine; `seen` holds the bytes read before, last first. -/
def readFrom (known : Option (List String)) (r : Reading) (seen : List UInt8) :
    List UInt8 → Except Failure Json
  | [] =>
    match r.finish with
    | .ok v => .ok v
    | .error f => .error (Failure.after f seen.reverse)
  | b :: rest =>
    match r.step known b with
    | .more r => readFrom known r (b :: seen) rest
    | .whole v true => onlySpace v (b :: seen) rest
    | .whole v false => onlySpace v seen (b :: rest)
    | .stuck f used => .error (Failure.after f (if used then b :: seen else seen).reverse)

def read (bytes : List UInt8) : Except Failure Json :=
  readFrom none Reading.start [] bytes

/-- The document that a text holds, read as a record with these fields. -/
def readRecord (fields : List String) (bytes : List UInt8) : Except Failure Json :=
  readFrom (some fields) Reading.start [] bytes

end ClusterAgent.Json
