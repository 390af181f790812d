/-
  ClusterAgent/Yaml/Token.lean
  ============================
  **Tokens of a YAML text, and places in it.**
-/
import ClusterAgent.Yaml.Character
import ClusterAgent.Yaml.Fault

namespace ClusterAgent.Yaml

/-- How a scalar was written: only a plain one can stand for anything but text. -/
inductive Style where
  | plain
  | quoted
deriving DecidableEq, Repr, Inhabited

/-- A token.  Block collections show their start and end by indentation alone. -/
inductive Token where
  | version (major minor : Nat)
  | handle (name : List Char) (value : List UInt8)
  | documentStart
  | documentEnd
  | blockSequenceStart
  | blockMappingStart
  | blockEnd
  | flowSequenceStart
  | flowSequenceEnd
  | flowMappingStart
  | flowMappingEnd
  | blockEntry
  | flowEntry
  | key
  | value
  | alias (name : List Char)
  | anchor (name : List Char)
  /-- A tag with its handle, which is blank in the verbatim form, and its suffix. -/
  | tag (handle : List Char) (suffix : List UInt8)
  | scalar (style : Style) (text : List Char)
deriving DecidableEq, Repr, Inhabited

/-- A place in a text: what follows, and how far it is from the start. -/
structure Cursor where
  rest : List Char
  index : Nat
  line : Nat
  column : Nat
deriving Repr, Inhabited

namespace Cursor

def ofText (cs : List Char) : Cursor := ⟨cs, 0, 0, 0⟩

def skip (c : Cursor) : Cursor :=
  match c.rest with
  | [] => c
  | _ :: rest => { c with rest, index := c.index + 1, column := c.column + 1 }

def skipMany (c : Cursor) : Nat → Cursor
  | 0 => c
  | n + 1 => c.skip.skipMany n

/-- Passes one line break; a carriage return and a line feed are one. -/
def skipLine (c : Cursor) : Cursor :=
  match c.rest with
  | '\r' :: '\n' :: rest => ⟨rest, c.index + 2, c.line + 1, 0⟩
  | b :: rest => if isBreak b then ⟨rest, c.index + 1, c.line + 1, 0⟩ else c
  | [] => c

/-- What the line break here means in a scalar: a line feed, or one of the two Unicode
    separators. -/
def lineBreak (c : Cursor) : List Char :=
  match c.rest with
  | b :: _ =>
    if b.toNat = 0x2028 ∨ b.toNat = 0x2029 then [b] else if isBreak b then ['\n'] else []
  | [] => []

/-- Passes characters while they satisfy `p` and returns them; the count bounds them. -/
def takeWhile (p : Char → Bool) (c : Cursor) : List Char × Cursor :=
  let taken := c.rest.takeWhile p
  (taken, { c with
    rest := c.rest.drop taken.length
    index := c.index + taken.length
    column := c.column + taken.length })

/-- Passes characters while they satisfy `p`. -/
def skipWhile (p : Char → Bool) (c : Cursor) : Cursor :=
  (c.takeWhile p).2

def sees (c : Cursor) (x : Char) : Bool :=
  c.rest.head? == some x

/-- Whether a document indicator stands here, at the start of a line. -/
def atDocumentMark (c : Cursor) : Bool :=
  c.column == 0 &&
    match c.rest with
    | '-' :: '-' :: '-' :: rest => atBlank rest
    | '.' :: '.' :: '.' :: rest => atBlank rest
    | _ => false

end Cursor

end ClusterAgent.Yaml
