/-
  ClusterAgent/Json/Fault.lean
  ============================
  **What can be wrong with a JSON text, and where.**

  A fault is a cause.  It is reported with the line and column reached, both
  counted in bytes of the text.
-/
namespace ClusterAgent.Json

/-- Why a text is no JSON document. -/
inductive Fault where
  | endInList
  | endInObject
  | endInString
  | endInValue
  | expectedColon
  | expectedListCommaOrEnd
  | expectedObjectCommaOrEnd
  | expectedWord
  | expectedValue
  | invalidEscape
  | invalidNumber
  | numberOutOfRange
  | invalidCodePoint
  | controlCharacter
  | keyNotString
  | loneSurrogate
  | trailingComma
  | trailingCharacters
  | unfinishedSurrogatePair
  | tooDeep
  /-- A field of a record is given twice. -/
  | repeatedField (name : String)
deriving DecidableEq, Repr

def Fault.message : Fault → String
  | .endInList => "EOF while parsing a list"
  | .endInObject => "EOF while parsing an object"
  | .endInString => "EOF while parsing a string"
  | .endInValue => "EOF while parsing a value"
  | .expectedColon => "expected \x60:\x60"
  | .expectedListCommaOrEnd => "expected \x60,\x60 or \x60]\x60"
  | .expectedObjectCommaOrEnd => "expected \x60,\x60 or \x60\x7d\x60"
  | .expectedWord => "expected ident"
  | .expectedValue => "expected value"
  | .invalidEscape => "invalid escape"
  | .invalidNumber => "invalid number"
  | .numberOutOfRange => "number out of range"
  | .invalidCodePoint => "invalid unicode code point"
  | .controlCharacter => "control character (\\u0000-\\u001F) found while parsing a string"
  | .keyNotString => "key must be a string"
  | .loneSurrogate => "lone leading surrogate in hex escape"
  | .trailingComma => "trailing comma"
  | .trailingCharacters => "trailing characters"
  | .unfinishedSurrogatePair => "unexpected end of hex escape"
  | .tooDeep => "recursion limit exceeded"
  | .repeatedField name => "duplicate field \x60" ++ name ++ "\x60"

/-- Whether the fault is only that the text stops too early: more bytes could still complete it. -/
def Fault.isEnd : Fault → Bool
  | .endInList | .endInObject | .endInString | .endInValue => true
  | _ => false

/-- A fault with the place it was found at. -/
structure Failure where
  fault : Fault
  line : Nat
  column : Nat
deriving DecidableEq, Repr

def Failure.message (f : Failure) : String :=
  f.fault.message ++ " at line " ++ toString f.line ++ " column " ++ toString f.column

/-- The place after the given bytes: lines count from one, columns are bytes since the last line
    break. -/
def Failure.after (fault : Fault) (bytes : List UInt8) : Failure :=
  { fault
    line := 1 + bytes.count 0x0A
    column := (bytes.reverse.takeWhile (· != 0x0A)).length }

end ClusterAgent.Json
