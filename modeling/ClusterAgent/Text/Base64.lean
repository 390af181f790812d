/-
  ClusterAgent/Text/Base64.lean
  =============================
  **Standard base64 with canonical padding.**

  Bytes of a shell or a log travel inside a JSON string.  `encode` writes three
  bytes as four digits and pads the last group; `decode?` accepts exactly the
  texts that `encode` writes: wrong padding, a foreign character or a nonzero
  bit under the padding make it fail.
-/
namespace ClusterAgent.Text.Base64

/-! ### Digits -/

/-- The digit for a value below 64. -/
def digit (n : Nat) : Char :=
  if n < 26 then Char.ofNat (65 + n)
  else if n < 52 then Char.ofNat (71 + n)
  else if n < 62 then Char.ofNat (n - 4)
  else if n = 62 then '+'
  else '/'

def value? (c : Char) : Option Nat :=
  let n := c.toNat
  if 65 ≤ n ∧ n ≤ 90 then some (n - 65)
  else if 97 ≤ n ∧ n ≤ 122 then some (n - 71)
  else if 48 ≤ n ∧ n ≤ 57 then some (n + 4)
  else if n = 43 then some 62
  else if n = 47 then some 63
  else none

/-! ### Writing -/

def digits : List UInt8 → List Char
  | [] => []
  | [a] =>
    [digit (a.toNat / 4), digit (a.toNat % 4 * 16), '=', '=']
  | [a, b] =>
    [digit (a.toNat / 4), digit (a.toNat % 4 * 16 + b.toNat / 16), digit (b.toNat % 16 * 4), '=']
  | a :: b :: c :: rest =>
    digit (a.toNat / 4) :: digit (a.toNat % 4 * 16 + b.toNat / 16) ::
      digit (b.toNat % 16 * 4 + c.toNat / 64) :: digit (c.toNat % 64) :: digits rest

/-- The base64 text of a byte string. -/
def encode (bytes : List UInt8) : String :=
  String.ofList (digits bytes)

/-! ### Reading -/

/-- One byte from the last group when two digits and two pads remain. -/
def lastOne? (x y : Char) : Option (List UInt8) := do
  let a ← value? x
  let b ← value? y
  if b % 16 = 0 then some [UInt8.ofNat (a * 4 + b / 16)] else none

/-- Two bytes from the last group when three digits and one pad remain. -/
def lastTwo? (x y z : Char) : Option (List UInt8) := do
  let a ← value? x
  let b ← value? y
  let c ← value? z
  if c % 4 = 0 then
    some [UInt8.ofNat (a * 4 + b / 16), UInt8.ofNat (b % 16 * 16 + c / 4)]
  else none

/-- Three bytes from a group of four digits. -/
def three? (x y z w : Char) : Option (List UInt8) := do
  let a ← value? x
  let b ← value? y
  let c ← value? z
  let d ← value? w
  some [UInt8.ofNat (a * 4 + b / 16), UInt8.ofNat (b % 16 * 16 + c / 4),
    UInt8.ofNat (c % 4 * 64 + d)]

/-- The bytes that these digits stand for, if the digits are canonical. -/
def bytes? : List Char → Option (List UInt8)
  | [] => some []
  | [x, y, z, w] =>
    if w = '=' then
      if z = '=' then lastOne? x y else lastTwo? x y z
    else three? x y z w
  | x :: y :: z :: w :: rest => do
    let head ← three? x y z w
    let tail ← bytes? rest
    some (head ++ tail)
  | _ => none

/-- The byte string whose base64 text is `s`, if there is one. -/
def decode? (s : String) : Option (List UInt8) :=
  bytes? s.toList

end ClusterAgent.Text.Base64
