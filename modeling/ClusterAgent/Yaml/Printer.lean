/-
  ClusterAgent/Yaml/Printer.lean
  ==============================
  **A JSON value as a YAML text.**

  Collections are written as blocks indented by two, empty ones in brackets.  A
  string is written plainly where that reads back as the same string, in single quotes
  where it would read as something else, literally where it has line feeds, and in
  double quotes where nothing else can hold it.

  The page remembers three things about the current line: its column, whether
  white space was written last, and whether nothing but indentation and block
  indicators stands on it.  They decide where spaces and line breaks go.
-/
import ClusterAgent.Yaml.Scalar
import ClusterAgent.Yaml.Character
import ClusterAgent.Decimal.Shortest

namespace ClusterAgent.Yaml

/-! ### The page -/

structure Page where
  /-- The characters so far, last first. -/
  text : List Char
  column : Nat
  /-- Whether white space was written last. -/
  spaced : Bool
  /-- Whether only indentation and block indicators stand on the line. -/
  indented : Bool

namespace Page

def blank : Page := ⟨[], 0, true, true⟩

def put (p : Page) (c : Char) : Page :=
  { p with text := c :: p.text, column := p.column + 1 }

def puts (p : Page) (cs : List Char) : Page :=
  cs.foldl put p

def newLine (p : Page) : Page :=
  { p with text := '\n' :: p.text, column := 0 }

def putBreak (p : Page) (c : Char) : Page :=
  { p with text := c :: p.text, column := 0 }

/-- Goes to a column at the start of a line, on this line if it is still possible. -/
def indentTo (p : Page) (column : Nat) : Page :=
  let p :=
    if !p.indented || column < p.column || (p.column == column && !p.spaced) then p.newLine else p
  let p := p.puts (List.replicate (column - p.column) ' ')
  { p with spaced := true, indented := true }

def indicator (p : Page) (s : List Char) (needsSpace isSpace keepsIndentation : Bool) : Page :=
  let p := if needsSpace && !p.spaced then p.put ' ' else p
  let p := p.puts s
  { p with spaced := isSpace, indented := p.indented && keepsIndentation }

end Page

/-! ### Strings -/

/-- How a string is written. -/
inductive Form where
  | plain
  | single
  | double
  | literal
deriving DecidableEq

/-- What a string holds, as far as its form depends on it. -/
structure Features where
  /-- It looks like the start of something else. -/
  indicators : Bool
  breaks : Bool
  /-- A character that cannot be written as it is. -/
  special : Bool
  /-- White space at the start or the end. -/
  outerSpace : Bool
  trailingSpace : Bool
  breakSpace : Bool
  spaceBreak : Bool

def isLeadingIndicator (c : Char) : Bool :=
  "#,[]\x7b\x7d&*!|>'\"%@\x60".toList.contains c

/-- Whether a character of a scalar means something at its place: `before` says whether it is first
    or follows white space or a break, `rest` is what follows. -/
def isIndicator (first before : Bool) (c : Char) (rest : List Char) : Bool :=
  if first then
    isLeadingIndicator c || ((c == '?' || c == ':' || c == '-') && atBlank rest)
  else (c == ':' && atBlank rest) || (c == '#' && before)

/-- Whether some character of a scalar means something at its place. -/
def hasIndicator : (first before : Bool) → List Char → Bool
  | _, _, [] => false
  | first, before, c :: rest =>
    isIndicator first before c rest || hasIndicator false (isBlank c || isBreak c) rest

/-- Whether a character of the first class is followed by one of the second. -/
def hasPair (p q : Char → Bool) : List Char → Bool
  | a :: b :: rest => (p a && q b) || hasPair p q (b :: rest)
  | _ => false

def isSpace (c : Char) : Bool := c == ' '

def Features.of (cs : List Char) : Features :=
  let outer (c : Option Char) := c.any fun c => isSpace c || isBreak c
  { indicators := ['-', '-', '-'].isPrefixOf cs || ['.', '.', '.'].isPrefixOf cs ||
      hasIndicator true true cs
    breaks := cs.any isBreak
    special := cs.any (!isPrintable ·)
    outerSpace := outer cs.head? || outer cs.getLast?
    trailingSpace := cs.getLast?.any isSpace
    breakSpace := hasPair isBreak isSpace cs
    spaceBreak := hasPair isSpace isBreak cs }

/-- The form of a string; `isKey` says that it stands before a colon on its line. -/
def form (isKey : Bool) (s : String) : Form :=
  let cs := s.toList
  let f := Features.of cs
  let bare := !(cs = [] || f.outerSpace || f.breakSpace || f.spaceBreak || f.special || f.breaks ||
    f.indicators)
  let inQuotes := !(f.breakSpace || f.spaceBreak || f.special)
  let inBlock := !(cs = [] || f.trailingSpace || f.spaceBreak || f.special)
  if cs.contains '\n' then
    if isKey || !inBlock then .double else .literal
  else if isKey && f.breaks then .double
  else if !Scalar.isAmbiguous s && bare then .plain
  else if inQuotes then .single
  else .double

namespace Page

def plain (p : Page) (cs : List Char) : Page :=
  let p := if !p.spaced && !cs.isEmpty then p.put ' ' else p
  { p.puts cs with spaced := false, indented := false }

/-- Writes the characters of a scalar in single quotes; `broken` says that a break came before. -/
def singleText (indent : Nat) : (broken : Bool) → List Char → Page → Page
  | broken, [], p => if broken then p.indentTo indent else p
  | broken, c :: rest, p =>
    if isSpace c then singleText indent broken rest (p.put c)
    else if isBreak c then
      singleText indent true rest { p.putBreak c with indented := true }
    else
      let p := if broken then p.indentTo indent else p
      let p := if c = '\'' then (p.put c).put c else p.put c
      singleText indent false rest { p with spaced := false, indented := false }

def single (p : Page) (indent : Nat) (cs : List Char) : Page :=
  let p := p.indicator ['\''] true false false
  let p := singleText indent false cs p
  { p.indicator ['\''] false false false with spaced := false, indented := false }

def hexDigit (n : Nat) : Char :=
  if n < 10 then Char.ofNat (48 + n) else Char.ofNat (55 + n)

/-- The last `width` hexadecimal digits of a number. -/
def hexDigits : (width : Nat) → Nat → List Char
  | 0, _ => []
  | w + 1, n => hexDigits w (n / 16) ++ [hexDigit (n % 16)]

def escape (c : Char) : List Char :=
  let n := c.toNat
  match n with
  | 0x00 => ['0']
  | 0x07 => ['a']
  | 0x08 => ['b']
  | 0x09 => ['t']
  | 0x0A => ['n']
  | 0x0B => ['v']
  | 0x0C => ['f']
  | 0x0D => ['r']
  | 0x1B => ['e']
  | 0x22 => ['"']
  | 0x5C => ['\\']
  | 0x85 => ['N']
  | 0xA0 => ['_']
  | 0x2028 => ['L']
  | 0x2029 => ['P']
  | _ =>
    if n ≤ 0xFF then 'x' :: hexDigits 2 n
    else if n ≤ 0xFFFF then 'u' :: hexDigits 4 n
    else 'U' :: hexDigits 8 n

def double (p : Page) (cs : List Char) : Page :=
  let p := p.indicator ['"'] true false false
  let p := cs.foldl (fun p c =>
    if isPrintable c && !isBreak c && c != '"' && c != '\\' then p.put c
    else p.puts ('\\' :: escape c)) p
  { p.indicator ['"'] false false false with spaced := false, indented := false }

/-- The marks after the indicator of a literal scalar: the indentation if the text starts with
    white space, and what happens to the breaks at its end. -/
def hints (cs : List Char) : List Char :=
  let indent := if cs.head?.any fun c => isSpace c || isBreak c then ['2'] else []
  let chomp := match cs.reverse with
    | [] => ['-']
    | last :: before =>
      if !isBreak last then ['-']
      else match before with
        | [] => ['+']
        | c :: _ => if isBreak c then ['+'] else []
  indent ++ chomp

/-- Writes the lines of a literal scalar; `broken` says that a line starts here. -/
def literalText (indent : Nat) : (broken : Bool) → List Char → Page → Page
  | _, [], p => p
  | broken, c :: rest, p =>
    if isBreak c then literalText indent true rest { p.putBreak c with indented := true }
    else
      let p := if broken then p.indentTo indent else p
      literalText indent false rest { p.put c with indented := false }

def literal (p : Page) (indent : Nat) (cs : List Char) : Page :=
  let p := p.indicator ['|'] true false false
  let p := { p.puts (hints cs) with indented := false }
  literalText indent true cs { p.newLine with spaced := true, indented := true }

def deeper : Option Nat → Nat
  | none => 2
  | some n => n + 2

/-- Writes a string inside a collection at `indent`, if it is inside one. -/
def string (p : Page) (indent : Option Nat) (isKey : Bool) (s : String) : Page :=
  match form isKey s with
  | .plain => p.plain s.toList
  | .single => p.single (deeper indent) s.toList
  | .double => p.double s.toList
  | .literal => p.literal (deeper indent) s.toList

/-- Whether a key can stand before the colon on its line: it has no break and is at most 128 bytes
    long. -/
def isSimpleKey (key : String) : Bool :=
  !key.toList.any isBreak && key.utf8ByteSize ≤ 128

end Page

/-! ### Values -/

/-- YAML writes no sign before a positive exponent. -/
def layout : Decimal.Double.Layout := ⟨false⟩

/-- The column of the entries of a collection inside one at `indent`.  A sequence that is a value of
    a mapping stays at its column, unless it starts on the line of a block indicator. -/
def entryColumn (indent : Option Nat) (stays : Bool) : Nat :=
  match indent with
  | none => 0
  | some n => if stays then n else n + 2

mutual
/-- Writes a value inside a collection at `indent`; `inMapping` says that it belongs to a
    mapping. -/
def printValue (indent : Option Nat) (inMapping : Bool) : Json → Page → Page
  | .null, p => p.plain ['n', 'u', 'l', 'l']
  | .bool b, p => p.plain (if b then ['t', 'r', 'u', 'e'] else ['f', 'a', 'l', 's', 'e'])
  | .number (.int n), p => p.plain (toString n).toList
  | .number (.real d), p => p.plain (d.text layout)
  | .string s, p => p.string indent false s
  | .array [], p => (p.indicator ['['] true true false).indicator [']'] false false false
  | .array (v :: vs), p => printItems (entryColumn indent (inMapping && !p.indented)) (v :: vs) p
  | .object [], p => (p.indicator ['\x7b'] true true false).indicator ['\x7d'] false false false
  | .object (f :: fs), p => printEntries (entryColumn indent false) (f :: fs) p

def printItems (column : Nat) : List Json → Page → Page
  | [], p => p
  | v :: vs, p =>
    let p := (p.indentTo column).indicator ['-'] true false true
    printItems column vs (printValue (some column) false v p)

/-- Writes the entries of a mapping, long keys after a question mark. -/
def printEntries (column : Nat) : List (String × Json) → Page → Page
  | [], p => p
  | (key, v) :: fs, p =>
    let p := p.indentTo column
    let p :=
      if Page.isSimpleKey key then
        (p.string (some column) true key).indicator [':'] false false false
      else
        let p := p.indicator ['?'] true false true
        let p := p.string (some column) false key
        (p.indentTo column).indicator [':'] true false true
    printEntries column fs (printValue (some column) true v p)
end

def print (j : Json) : String :=
  String.ofList ((printValue none false j Page.blank).indentTo 0).text.reverse

end ClusterAgent.Yaml
