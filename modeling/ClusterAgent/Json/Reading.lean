/-
  ClusterAgent/Json/Reading.lean
  ==============================
  **A JSON document, one byte at a time.**

  `Reading` is a pushdown machine: a stage that says what may come next, and a
  stack of the lists and objects that are still open.  Feeding it byte by
  byte makes the result independent of how the bytes were cut into pieces.

  Lists and objects may nest 127 deep.  A record read from a text names its known fields:
  giving one of them twice is a fault, and the value of any other field is only
  checked for its shape.
-/
import ClusterAgent.Json.Numeral
import ClusterAgent.Json.Quote

namespace ClusterAgent.Json

/-- A list or an object that is still open. -/
inductive Frame where
  /-- The items read so far, last first. -/
  | list (items : List Json)
  /-- The fields read so far in key order, and the key whose value is being read. -/
  | object (fields : List (String × Json)) (key : String)
deriving Repr

/-- What the machine waits for. -/
inductive Stage where
  | value
  /-- The first item of a list, or its end. -/
  | firstItem
  | nextItem
  /-- A comma or the end of a list. -/
  | afterItem
  /-- The first key of an object, or its end. -/
  | firstKey
  | nextKey
  | colon
  /-- A comma or the end of an object. -/
  | afterField
  /-- The rest of a word with the value that it means. -/
  | word (rest : List UInt8) (meaning : Json)
  | numeral (n : Numeral)
  /-- The rest of a string that is a value. -/
  | text (q : Quote)
  /-- The rest of a string that is a key. -/
  | key (q : Quote)
deriving Repr

/-- A document of which some bytes have been read. -/
structure Reading where
  stage : Stage
  stack : List Frame
  /-- Whether the value being read belongs to no known field, so that only its shape counts. -/
  skim : Bool
deriving Repr

namespace Reading

/-- The machine before the first byte. -/
def start : Reading := ⟨.value, [], false⟩

/-- The number of lists and objects that may be open at a time. -/
def maxDepth : Nat := 127

/-- What one more byte does. -/
inductive Step where
  | more (r : Reading)
  /-- The document is complete; `used` says whether the byte belonged to it. -/
  | whole (value : Json) (used : Bool)
  /-- No document begins with these bytes; `used` says whether the byte counts as read. -/
  | stuck (fault : Fault) (used : Bool)

def isSpace (b : UInt8) : Bool :=
  b == 0x20 || b == 0x0A || b == 0x09 || b == 0x0D

/-- Hands a complete value to the innermost open list or object, or ends the document. -/
def deliver (r : Reading) (v : Json) (used : Bool) : Step :=
  match r.stack with
  | [] => .whole v used
  | .list items :: rest =>
    .more ⟨.afterItem, .list (v :: items) :: rest, r.skim && !rest.isEmpty⟩
  | .object fields key :: rest =>
    .more ⟨.afterField, .object (insert key v fields) key :: rest, r.skim && !rest.isEmpty⟩

def close (r : Reading) : Step :=
  match r.stack with
  | [] => .stuck .expectedValue true
  | .list items :: rest => deliver { r with stack := rest } (.array items.reverse) true
  | .object fields _ :: rest => deliver { r with stack := rest } (.object fields) true

def enter (r : Reading) (frame : Frame) (stage : Stage) : Step :=
  if maxDepth ≤ r.stack.length ∧ r.skim = false then .stuck .tooDeep true
  else .more { r with stage, stack := frame :: r.stack }

/-- The first byte of a value. -/
def begin (r : Reading) (b : UInt8) : Step :=
  if b = 0x5B then r.enter (.list []) .firstItem
  else if b = 0x7B then r.enter (.object [] "") .firstKey
  else if b = 0x22 then .more { r with stage := .text Quote.opened }
  else if b = 0x6E then .more { r with stage := .word [0x75, 0x6C, 0x6C] .null }
  else if b = 0x74 then .more { r with stage := .word [0x72, 0x75, 0x65] (.bool true) }
  else if b = 0x66 then .more { r with stage := .word [0x61, 0x6C, 0x73, 0x65] (.bool false) }
  else
    match Numeral.start? b with
    | some n => .more { r with stage := .numeral n }
    | none => .stuck .expectedValue true

/-- Takes the key of the next field.  At the top of a record (`known` given) a known field must not
    come twice, and the value of an unknown one is only skimmed. -/
def takeKey (known : Option (List String)) (r : Reading) (key : String) : Step :=
  match r.stack with
  | .object fields _ :: rest =>
    let r := { r with stage := .colon, stack := .object fields key :: rest }
    match known, rest with
    | some names, [] =>
      if key ∉ names then .more { r with skim := true }
      else if (find? key fields).isSome then .stuck (.repeatedField key) true
      else .more r
    | _, _ => .more r
  | _ => .stuck .expectedValue true

/-- The end of a number that the next byte does not belong to. -/
def endNumeral (r : Reading) (n : Numeral) : Step :=
  if r.skim then r.deliver .null false
  else
    match n.value with
    | some v => r.deliver (.number v) false
    | none => .stuck .numberOutOfRange false

/-- One more byte, unless a number is being read. -/
def stepPlain (known : Option (List String)) (r : Reading) (b : UInt8) : Step :=
  match r.stage with
  | .word rest meaning =>
    match rest with
    | [] => .stuck .expectedWord true
    | [c] => if b = c then r.deliver meaning true else .stuck .expectedWord true
    | c :: more =>
      if b = c then .more { r with stage := .word more meaning } else .stuck .expectedWord true
  | .text q =>
    match q.step (!r.skim) b with
    | .more q => .more { r with stage := .text q }
    | .stuck f => .stuck f true
    | .closed bytes =>
      match Quote.text? (!r.skim) bytes with
      | some s => r.deliver (.string s) true
      | none => .stuck .invalidCodePoint true
  | .key q =>
    match q.step (!r.skim) b with
    | .more q => .more { r with stage := .key q }
    | .stuck f => .stuck f true
    | .closed bytes =>
      match Quote.text? (!r.skim) bytes with
      | some s => takeKey known r s
      | none => .stuck .invalidCodePoint true
  | stage =>
    if isSpace b then .more r
    else
      match stage with
      | .firstItem => if b = 0x5D then r.close else r.begin b
      | .nextItem => if b = 0x5D then .stuck .trailingComma true else r.begin b
      | .afterItem =>
        if b = 0x5D then r.close
        else if b = 0x2C then .more { r with stage := .nextItem }
        else .stuck .expectedListCommaOrEnd true
      | .firstKey =>
        if b = 0x22 then .more { r with stage := .key Quote.opened }
        else if b = 0x7D then r.close
        else .stuck .keyNotString true
      | .nextKey =>
        if b = 0x22 then .more { r with stage := .key Quote.opened }
        else if b = 0x7D then .stuck .trailingComma true
        else .stuck .keyNotString true
      | .afterField =>
        if b = 0x7D then r.close
        else if b = 0x2C then .more { r with stage := .nextKey }
        else .stuck .expectedObjectCommaOrEnd true
      | .colon => if b = 0x3A then .more { r with stage := .value } else .stuck .expectedColon true
      | _ => r.begin b

/-- One more byte.  A number is complete only when a byte comes that does not belong to it; that
    byte is then read on its own. -/
def step (known : Option (List String)) (r : Reading) (b : UInt8) : Step :=
  match r.stage with
  | .numeral n =>
    match n.step (!r.skim) b with
    | .more n => .more { r with stage := .numeral n }
    | .stuck f => .stuck f true
    | .ended =>
      match r.endNumeral n with
      | .more r => stepPlain known r b
      | other => other
  | _ => stepPlain known r b

/-- What the end of the text means for a document that is still being read. -/
def finish (r : Reading) : Except Fault Json :=
  match r.stage with
  | .numeral n =>
    if n.isWhole then
      match r.endNumeral n with
      | .whole v _ => .ok v
      | .stuck f _ => .error f
      | .more r =>
        match r.stage with
        | .afterItem => .error .endInList
        | _ => .error .endInObject
    else .error .endInValue
  | .firstItem | .afterItem => .error .endInList
  | .firstKey | .colon | .afterField => .error .endInObject
  | .text _ | .key _ => .error .endInString
  | .value | .nextItem | .nextKey | .word .. => .error .endInValue

end Reading

end ClusterAgent.Json
