/-
  ClusterAgent/Json/Quote.lean
  ============================
  **JSON strings, one byte at a time.**

  A `Quote` is a string of which some bytes have been read.  Escapes are
  replaced by the bytes they stand for; a pair of surrogate escapes is one
  character, and a lone surrogate is a fault.  Whether all bytes together are
  UTF-8 is decided at the closing quote.

  With `exact := false` only the shape of the string is read: four hexadecimal
  digits after each `u` escape, and no more.
-/
import ClusterAgent.Json.Fault

namespace ClusterAgent.Json

/-- Where in a string the reader stands. -/
inductive Quote.Phase where
  | plain
  | escape
  /-- Within the four digits of a `u` escape, the digits read so far last first; `high` is the
      leading surrogate read before, if any. -/
  | hex (digits : List UInt8) (high : Option Nat)
  /-- After a leading surrogate: a backslash must follow. -/
  | pair (high : Nat)
  /-- After a leading surrogate and a backslash: a `u` must follow. -/
  | pairEscape (high : Nat)
deriving DecidableEq, Repr

/-- A string of which some bytes have been read, the bytes last first. -/
structure Quote where
  bytes : List UInt8
  phase : Quote.Phase
deriving DecidableEq, Repr

namespace Quote

def opened : Quote := ⟨[], .plain⟩

/-- What one more byte does to a string. -/
inductive Step where
  | more (q : Quote)
  | closed (bytes : List UInt8)
  | stuck (fault : Fault)
deriving DecidableEq, Repr

def hexDigit? (b : UInt8) : Option Nat :=
  if 0x30 ≤ b ∧ b ≤ 0x39 then some (b.toNat - 0x30)
  else if 0x41 ≤ b ∧ b ≤ 0x46 then some (b.toNat - 0x37)
  else if 0x61 ≤ b ∧ b ≤ 0x66 then some (b.toNat - 0x57)
  else none

/-- The value of hexadecimal digits, last digit first. -/
def hexValue? : List UInt8 → Option Nat
  | [] => some 0
  | b :: rest => do
    let d ← hexDigit? b
    let high ← hexValue? rest
    some (high * 16 + d)

/-- Adds the UTF-8 form of a character. -/
def push (q : Quote) (code : Nat) : Quote :=
  ⟨(String.utf8EncodeChar (Char.ofNat code)).reverse ++ q.bytes, .plain⟩

def escaped? (b : UInt8) : Option UInt8 :=
  if b = 0x22 ∨ b = 0x5C ∨ b = 0x2F then some b
  else if b = 0x62 then some 0x08
  else if b = 0x66 then some 0x0C
  else if b = 0x6E then some 0x0A
  else if b = 0x72 then some 0x0D
  else if b = 0x74 then some 0x09
  else none

/-- Ends a `u` escape with the value of its digits. -/
def endHex (exact : Bool) (q : Quote) (high : Option Nat) (n : Nat) : Step :=
  if exact then
    match high with
    | none =>
      if 0xDC00 ≤ n ∧ n ≤ 0xDFFF then .stuck .loneSurrogate
      else if 0xD800 ≤ n ∧ n ≤ 0xDBFF then .more { q with phase := .pair n }
      else .more (q.push n)
    | some h =>
      if 0xDC00 ≤ n ∧ n ≤ 0xDFFF then
        .more (q.push (0x10000 + (h - 0xD800) * 0x400 + (n - 0xDC00)))
      else .stuck .loneSurrogate
  else .more { q with phase := .plain }

def step (exact : Bool) (q : Quote) (b : UInt8) : Step :=
  match q.phase with
  | .plain =>
    if b = 0x22 then .closed q.bytes.reverse
    else if b = 0x5C then .more { q with phase := .escape }
    else if b < 0x20 then .stuck .controlCharacter
    else .more { q with bytes := b :: q.bytes }
  | .escape =>
    if b = 0x75 then .more { q with phase := .hex [] none }
    else
      match escaped? b with
      | some c => .more ⟨c :: q.bytes, .plain⟩
      | none => .stuck .invalidEscape
  | .hex digits high =>
    if digits.length < 3 then .more { q with phase := .hex (b :: digits) high }
    else
      match hexValue? (b :: digits) with
      | some n => q.endHex exact high n
      | none => .stuck .invalidEscape
  | .pair high =>
    if b = 0x5C then .more { q with phase := .pairEscape high } else .stuck .unfinishedSurrogatePair
  | .pairEscape high =>
    if b = 0x75 then .more { q with phase := .hex [] (some high) }
    else .stuck .unfinishedSurrogatePair

/-- The text of the bytes of a whole string. -/
def text? (exact : Bool) (bytes : List UInt8) : Option String :=
  if exact then String.fromUTF8? ⟨bytes.toArray⟩ else some ""

end Quote

end ClusterAgent.Json
