/-
  ClusterAgent/Yaml/Character.lean
  ================================
  **Character classes of YAML.**
-/
namespace ClusterAgent.Yaml

def isAllowed (c : Char) : Bool :=
  let n := c.toNat
  n == 0x09 || n == 0x0A || n == 0x0D || (0x20 ≤ n && n ≤ 0x7E) || n == 0x85 ||
    (0xA0 ≤ n && n ≤ 0xD7FF) || (0xE000 ≤ n && n ≤ 0xFFFD) || 0x10000 ≤ n

def isPrintable (c : Char) : Bool :=
  let n := c.toNat
  n == 0x0A || (0x20 ≤ n && n ≤ 0x7E) || (0xA0 ≤ n && n ≤ 0xD7FF) ||
    (0xE000 ≤ n && n ≤ 0xFFFD && n != 0xFEFF) || 0x10000 ≤ n

def isBlank (c : Char) : Bool :=
  c == ' ' || c == '\t'

def isBreak (c : Char) : Bool :=
  let n := c.toNat
  n == 0x0D || n == 0x0A || n == 0x85 || n == 0x2028 || n == 0x2029

/-- The characters of names: letters and digits of ASCII, a dash, a low line. -/
def isWord (c : Char) : Bool :=
  c.isAlphanum || c == '_' || c == '-'

def isOrderMark (c : Char) : Bool :=
  c.toNat == 0xFEFF

/-- Whether what comes next is a blank, a break or the end of the text. -/
def atBlank : List Char → Bool
  | [] => true
  | c :: _ => isBlank c || isBreak c

/-- Whether what comes next is a break or the end of the text. -/
def atBreak : List Char → Bool
  | [] => true
  | c :: _ => isBreak c

def hexDigit? (c : Char) : Option Nat :=
  if c.isDigit then some (c.toNat - 48)
  else if 'a' ≤ c ∧ c ≤ 'f' then some (c.toNat - 87)
  else if 'A' ≤ c ∧ c ≤ 'F' then some (c.toNat - 55)
  else none

end ClusterAgent.Yaml
