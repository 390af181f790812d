/-
  ClusterAgent/Text/Quoted.lean
  =============================
  **Text in quotes.**

  Quotes, backslashes and line ends are escaped by a letter; every character that
  would not show is written by its number.  What stands between the quotes is thus
  one line of characters that can be seen.
-/
import ClusterAgent.Text.Hidden

namespace ClusterAgent.Text

def escapeLetter? : Char → Option Char
  | '\x00' => some '0'
  | '\t' => some 't'
  | '\r' => some 'r'
  | '\n' => some 'n'
  | '\\' => some '\\'
  | '"' => some '"'
  | _ => none

def escape (c : Char) : List Char :=
  match escapeLetter? c with
  | some l => ['\\', l]
  | none =>
    if isHidden c then '\\' :: 'u' :: '\x7b' :: (Nat.toDigits 16 c.toNat ++ ['\x7d']) else [c]

def quoted (s : String) : String :=
  String.ofList ('"' :: (s.toList.flatMap escape ++ ['"']))

end ClusterAgent.Text
