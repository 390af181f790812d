/-
  ClusterAgent/Toml/Lexeme.lean
  =============================
  **Blanks, line ends, strings and keys.**

  Every function takes the text from some place on and returns the rest of it.
  Control characters other than tab stand nowhere, and a carriage return only before
  a line feed; a line end within a string is always one line feed.
-/
import ClusterAgent.Text.Digits
import ClusterAgent.Toml.Value

namespace ClusterAgent.Toml.Lexeme

/-- The fault of a text that goes on otherwise than it should. -/
def unexpected : List Char → Fault
  | [] => .unexpectedEnd
  | c :: _ => .unexpected c

/-! ### Between values -/

def isSpace (c : Char) : Bool := c == ' ' || c == '\t'

/-- Whether a character can stand in a comment or in a string. -/
def isText (c : Char) : Bool := c == '\t' || (' ' ≤ c && c != '\x7f')

def skipSpace (cs : List Char) : List Char := cs.dropWhile isSpace

def skipComment : List Char → List Char
  | '#' :: rest => rest.dropWhile isText
  | cs => cs

/-- The rest of the text after the end of the line, with at most blank space and a comment before
    it. -/
def lineEnd (cs : List Char) : Except Fault (List Char) :=
  match skipComment (skipSpace cs) with
  | [] => .ok []
  | '\n' :: rest => .ok rest
  | '\r' :: '\n' :: rest => .ok rest
  | rest => .error (unexpected rest)

def skipBlank (inComment : Bool) : List Char → List Char
  | '\n' :: rest => skipBlank false rest
  | '\r' :: '\n' :: rest => skipBlank false rest
  | c :: rest =>
    if inComment then if isText c then skipBlank true rest else c :: rest
    else if isSpace c then skipBlank false rest
    else if c = '#' then skipBlank true rest
    else c :: rest
  | [] => []

/-! ### Strings -/

/-- Where the reader of a quoted string stands. -/
inductive Place where
  | plain
  | escape
  /-- In the number of a character with so many digits to come. -/
  | code (left : Nat) (value : Nat)
  /-- In the blank space that follows a backslash at the end of a line; `ended` once the line end
      was seen. -/
  | gap (ended : Bool)
deriving DecidableEq, Repr

def escaped? : Char → Option Char
  | 'b' => some '\x08'
  | 't' => some '\t'
  | 'n' => some '\n'
  | 'f' => some '\x0c'
  | 'r' => some '\r'
  | '"' => some '"'
  | '\\' => some '\\'
  | _ => none

def charOfCode? (n : Nat) : Option Char :=
  if n.isValidChar then some (Char.ofNat n) else none

/-- Reads one more character of an escape; the result is the next place and the character that the
    escape stands for, if it is complete. -/
def stepEscape (place : Place) (c : Char) : Except Fault (Place × List Char) :=
  match place with
  | .code left value =>
    match Text.digit? 16 c, left with
    | some d, left + 2 => .ok (.code (left + 1) (value * 16 + d), [])
    | some d, _ =>
      match charOfCode? (value * 16 + d) with
      | some c => .ok (.plain, [c])
      | none => .error .badEscape
    | none, _ => .error .badEscape
  | _ =>
    if c = 'u' then .ok (.code 4 0, [])
    else if c = 'U' then .ok (.code 8 0, [])
    else
      match escaped? c with
      | some c => .ok (.plain, [c])
      | none => .error .badEscape

def Place.isEscape : Place → Bool
  | .escape => true
  | .code _ _ => true
  | _ => false

/-- Reads a string with escapes up to its closing quote; `acc` holds what was read, last character
    first. -/
def quoted (place : Place) (acc : List Char) : List Char → Except Fault (String × List Char)
  | [] => .error .unexpectedEnd
  | c :: rest =>
    if place.isEscape then do
      let (place, read) ← stepEscape place c
      quoted place (read ++ acc) rest
    else if c = '"' then .ok (String.ofList acc.reverse, rest)
    else if c = '\\' then quoted .escape acc rest
    else if isText c then quoted .plain (c :: acc) rest
    else .error (.unexpected c)

def literal (cs : List Char) : Except Fault (String × List Char) :=
  let inside := cs.takeWhile fun c => isText c && c != '\''
  match cs.dropWhile fun c => isText c && c != '\'' with
  | '\'' :: rest => .ok (String.ofList inside, rest)
  | rest => .error (unexpected rest)

/-- Reads a string with escapes over several lines up to its three closing quotes; one or two quotes
    may stand right before those.  Blank space around a line end after a backslash is dropped. -/
def quotedLines (place : Place) (acc : List Char) : List Char → Except Fault (String × List Char)
  | [] => .error .unexpectedEnd
  | '\r' :: '\n' :: rest =>
    match place with
    | .plain => quotedLines .plain ('\n' :: acc) rest
    | .code _ _ => .error .badEscape
    | _ => quotedLines (.gap true) acc rest
  | '\n' :: rest =>
    match place with
    | .plain => quotedLines .plain ('\n' :: acc) rest
    | .code _ _ => .error .badEscape
    | _ => quotedLines (.gap true) acc rest
  | c :: rest =>
    if isSpace c ∧ place = .escape then quotedLines (.gap false) acc rest
    else if place.isEscape then do
      let (place, read) ← stepEscape place c
      quotedLines place (read ++ acc) rest
    else if isSpace c ∧ place ≠ .plain then quotedLines place acc rest
    else if place = .gap false then .error .badEscape
    else if c = '"' then
      match rest with
      | '"' :: '"' :: '"' :: '"' :: rest => .ok (String.ofList ('"' :: '"' :: acc).reverse, rest)
      | '"' :: '"' :: '"' :: rest => .ok (String.ofList ('"' :: acc).reverse, rest)
      | '"' :: '"' :: rest => .ok (String.ofList acc.reverse, rest)
      | _ => quotedLines .plain ('"' :: acc) rest
    else if c = '\\' then quotedLines .escape acc rest
    else if isText c then quotedLines .plain (c :: acc) rest
    else .error (.unexpected c)

/-- Reads a string without escapes over several lines up to its three closing apostrophes; one or
    two apostrophes may stand right before those. -/
def literalLines (acc : List Char) : List Char → Except Fault (String × List Char)
  | [] => .error .unexpectedEnd
  | '\'' :: '\'' :: '\'' :: '\'' :: '\'' :: rest =>
    .ok (String.ofList ('\'' :: '\'' :: acc).reverse, rest)
  | '\'' :: '\'' :: '\'' :: '\'' :: rest => .ok (String.ofList ('\'' :: acc).reverse, rest)
  | '\'' :: '\'' :: '\'' :: rest => .ok (String.ofList acc.reverse, rest)
  | '\r' :: '\n' :: rest => literalLines ('\n' :: acc) rest
  | c :: rest =>
    if c = '\n' ∨ isText c then literalLines (c :: acc) rest else .error (.unexpected c)

def skipFirstLineEnd : List Char → List Char
  | '\n' :: rest => rest
  | '\r' :: '\n' :: rest => rest
  | cs => cs

/-- Reads a string of any of the four kinds, if there is one. -/
def string? : List Char → Option (Except Fault (String × List Char))
  | '"' :: '"' :: '"' :: rest => some (quotedLines .plain [] (skipFirstLineEnd rest))
  | '\'' :: '\'' :: '\'' :: rest => some (literalLines [] (skipFirstLineEnd rest))
  | '"' :: rest => some (quoted .plain [] rest)
  | '\'' :: rest => some (literal rest)
  | _ => none

/-! ### Keys -/

def isBare (c : Char) : Bool := c.isAlphanum || c == '_' || c == '-'

def keyPart (cs : List Char) : Except Fault (String × List Char) :=
  match cs with
  | '"' :: rest => quoted .plain [] rest
  | '\'' :: rest => literal rest
  | _ =>
    if (cs.takeWhile isBare).isEmpty then .error (unexpected cs)
    else .ok (String.ofList (cs.takeWhile isBare), cs.dropWhile isBare)

/-- Reads a key: parts with points between them, each with blank space around it. -/
def keyParts : (fuel : Nat) → List Char → Except Fault ((List String) × List Char)
  | 0, cs => .error (unexpected cs)
  | fuel + 1, cs => do
    let (part, rest) ← keyPart (skipSpace cs)
    match skipSpace rest with
    | '.' :: rest =>
      let (parts, rest) ← keyParts fuel rest
      .ok (part :: parts, rest)
    | rest => .ok ([part], rest)

/-- The most parts of a key, and one more than arrays and tables in braces may be nested. -/
def depthLimit : Nat := 80

/-- Reads a key and returns all its parts but the last, and the last. -/
def key (cs : List Char) : Except Fault ((List String × String) × List Char) := do
  let (parts, rest) ← keyParts (cs.length + 1) cs
  if depthLimit ≤ parts.length then .error .tooDeep
  else .ok ((parts.dropLast, parts.getLast?.getD ""), rest)

end ClusterAgent.Toml.Lexeme
