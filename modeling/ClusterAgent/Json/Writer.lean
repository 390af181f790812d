/-
  ClusterAgent/Json/Writer.lean
  =============================
  **Writing a JSON value without spaces.**

  A quote, a backslash and the control characters are escaped, by name where
  they have one and by four lowercase hexadecimal digits otherwise; every other
  character stands for itself.  A double shows that it is one: it has a point or
  an exponent.
-/
import ClusterAgent.Json.Basic
import ClusterAgent.Decimal.Shortest

namespace ClusterAgent.Json

def layout : Decimal.Double.Layout := ⟨true⟩

def Number.digits : Number → List Char
  | .int n => (toString n).toList
  | .real d => d.text layout

/-- A hexadecimal digit below sixteen, in lowercase. -/
def hexDigit (n : Nat) : Char :=
  if n < 10 then Char.ofNat (0x30 + n) else Char.ofNat (0x57 + n)

def escape (c : Char) : List Char :=
  if c = '"' then ['\\', '"']
  else if c = '\\' then ['\\', '\\']
  else if c.toNat = 0x08 then ['\\', 'b']
  else if c.toNat = 0x0C then ['\\', 'f']
  else if c = '\n' then ['\\', 'n']
  else if c = '\r' then ['\\', 'r']
  else if c = '\t' then ['\\', 't']
  else if c.toNat < 0x20 then
    ['\\', 'u', '0', '0', hexDigit (c.toNat / 16), hexDigit (c.toNat % 16)]
  else [c]

/-- A quoted string, followed by `tail`. -/
def quote (s : List Char) (tail : List Char) : List Char :=
  '"' :: s.foldr (fun c acc => escape c ++ acc) ('"' :: tail)

mutual
/-- A value, followed by `tail`. -/
def write : Json → List Char → List Char
  | .null, tail => 'n' :: 'u' :: 'l' :: 'l' :: tail
  | .bool true, tail => 't' :: 'r' :: 'u' :: 'e' :: tail
  | .bool false, tail => 'f' :: 'a' :: 'l' :: 's' :: 'e' :: tail
  | .number n, tail => n.digits ++ tail
  | .string s, tail => quote s.toList tail
  | .array [], tail => '[' :: ']' :: tail
  | .array (v :: vs), tail => '[' :: write v (writeItems vs tail)
  | .object [], tail => '\x7b' :: '\x7d' :: tail
  | .object ((k, v) :: fs), tail => '\x7b' :: quote k.toList (':' :: write v (writeFields fs tail))

/-- The items after the first one, and the end of the list. -/
def writeItems : List Json → List Char → List Char
  | [], tail => ']' :: tail
  | v :: vs, tail => ',' :: write v (writeItems vs tail)

/-- The fields after the first one, and the end of the object. -/
def writeFields : List (String × Json) → List Char → List Char
  | [], tail => '\x7d' :: tail
  | (k, v) :: fs, tail => ',' :: quote k.toList (':' :: write v (writeFields fs tail))
end

def render (j : Json) : String :=
  String.ofList (write j [])

/-- The bytes of the text of a value. -/
def bytes (j : Json) : List UInt8 :=
  j.render.toUTF8.toList

end ClusterAgent.Json
