/-
  ClusterAgent/Yaml/Lexeme.lean
  =============================
  **The longer tokens: directives, names, tags and scalars.**

  Each function stands at the first character of its token and returns the token
  with the place after it.  A loop is bounded by the number of characters that are
  left.
-/
import ClusterAgent.Yaml.Token

namespace ClusterAgent.Yaml

namespace Cursor

def fuel (c : Cursor) : Nat := c.rest.length + 1

/-- Passes blanks and a comment up to the end of the line, which must come then. -/
def restOfLine (c : Cursor) (fault : Fault) : Except Fault Cursor :=
  let c := c.skipWhile isBlank
  let c := if c.sees '#' then c.skipWhile (!isBreak ·) else c
  if atBreak c.rest then .ok c.skipLine else .error fault

/-! ### Tags -/

/-- The characters of a tag; a verbatim tag may hold three more. -/
def isTagCharacter (verbatim : Bool) (c : Char) : Bool :=
  isWord c || ";/?:@&=+$.%!~*'()".toList.contains c || (verbatim && ",[]".toList.contains c)

def escapedByte? (c : Cursor) : Option (Nat × Cursor) :=
  match c.rest with
  | '%' :: x :: y :: _ => do some ((← hexDigit? x) * 16 + (← hexDigit? y), c.skipMany 3)
  | _ => none

/-- So many escaped bytes that continue a character. -/
def continuation? (c : Cursor) : Nat → Option (List UInt8 × Cursor)
  | 0 => some ([], c)
  | n + 1 => do
    let (b, c) ← c.escapedByte?
    if b / 64 = 2 then
      let (bs, c) ← c.continuation? n
      some (UInt8.ofNat b :: bs, c)
    else none

/-- One escaped character of a tag, with as many bytes as its first byte says. -/
def escapedCharacter? (c : Cursor) : Option (List UInt8 × Cursor) := do
  let (b, c) ← c.escapedByte?
  let width ←
    if b < 0x80 then some 0
    else if b / 32 = 6 then some 1
    else if b / 16 = 14 then some 2
    else if b / 8 = 30 then some 3
    else none
  let (bs, c) ← c.continuation? width
  some (UInt8.ofNat b :: bs, c)

def tagText (verbatim : Bool) : Nat → Cursor → Except Fault (List UInt8 × Cursor)
  | 0, c => .ok ([], c)
  | fuel + 1, c =>
    match c.rest with
    | '%' :: _ =>
      match c.escapedCharacter? with
      | some (bs, c) => do
        let (more, c) ← tagText verbatim fuel c
        .ok (bs ++ more, c)
      | none => .error .badTag
    | x :: _ =>
      if isTagCharacter verbatim x then do
        let (more, c) ← tagText verbatim fuel c.skip
        .ok (UInt8.ofNat x.toNat :: more, c)
      else .ok ([], c)
    | [] => .ok ([], c)

/-- The handle of a tag: an exclamation mark, then a name with another mark, if there is one. -/
def tagHandle (c : Cursor) : List Char × Cursor :=
  let (name, d) := c.skip.takeWhile isWord
  if d.sees '!' then ('!' :: name ++ ['!'], d.skip) else ('!' :: name, d)

/-- The bytes of characters below 128. -/
def asciiBytes (cs : List Char) : List UInt8 :=
  cs.map fun c => UInt8.ofNat c.toNat

def tag (inFlow : Bool) (c : Cursor) : Except Fault (Token × Cursor) := do
  let (token, d) ←
    match c.rest with
    | _ :: '<' :: _ => do
      let (suffix, d) ← tagText true c.fuel (c.skipMany 2)
      if suffix = [] ∨ !d.sees '>' then throw Fault.badTag
      pure (Token.tag [] suffix, d.skip)
    | _ => do
      let (handle, d) := c.tagHandle
      if 2 ≤ handle.length ∧ handle.getLast? = some '!' then
        let (suffix, d) ← tagText false d.fuel d
        if suffix = [] then throw Fault.badTag
        pure (Token.tag handle suffix, d)
      else
        -- The name was no handle but the start of the suffix of the handle of one mark.
        let (more, d) ← tagText false d.fuel d
        let suffix := asciiBytes (handle.drop 1) ++ more
        if suffix = [] then pure (Token.tag [] (asciiBytes ['!']), d)
        else pure (Token.tag ['!'] suffix, d)
  if atBlank d.rest ∨ (inFlow ∧ d.sees ',') then pure (token, d) else throw Fault.badTag

/-! ### Directives, aliases and anchors -/

def versionNumber? (c : Cursor) : Option (Nat × Cursor) :=
  let (ds, c) := c.takeWhile Char.isDigit
  if ds = [] ∨ 9 < ds.length then none
  else some (ds.foldl (fun n d => n * 10 + (d.toNat - 48)) 0, c)

/-- A version or a tag directive, with the end of its line. -/
def directive (c : Cursor) : Except Fault (Token × Cursor) := do
  let (name, d) := c.skip.takeWhile isWord
  if name = [] ∨ !atBlank d.rest then throw Fault.badDirective
  let d := d.skipWhile isBlank
  let (token, d) ←
    if name = "YAML".toList then do
      let some (major, d) := d.versionNumber? | throw Fault.badDirective
      if !d.sees '.' then throw Fault.badDirective
      let some (minor, d) := d.skip.versionNumber? | throw Fault.badDirective
      pure (Token.version major minor, d)
    else if name = "TAG".toList then do
      if !d.sees '!' then throw Fault.badDirective
      let (handle, d) := d.tagHandle
      if handle ≠ ['!'] ∧ handle.getLast? ≠ some '!' then throw Fault.badDirective
      if !(d.rest.head?.any isBlank) then throw Fault.badDirective
      let d := d.skipWhile isBlank
      let (value, d) ← tagText true d.fuel d
      if value = [] ∨ !atBlank d.rest then throw Fault.badDirective
      pure (Token.handle handle value, d)
    else throw Fault.badDirective
  pure (token, ← d.restOfLine .badDirective)

def anchorName (c : Cursor) : Except Fault (List Char × Cursor) :=
  let (name, d) := c.skip.takeWhile isWord
  if name ≠ [] ∧ (atBlank d.rest ∨ d.rest.head?.any ("?:,]\x7d%@\x60".toList.contains ·)) then
    .ok (name, d)
  else .error .badAnchor

/-! ### Line folding -/

/-- The white space inside a scalar: blanks of one line, or the breaks between two lines. -/
structure Gap where
  /-- Blanks before the first break, in order. -/
  blanks : List Char
  broken : Bool
  first : List Char
  more : List Char
deriving Inhabited

def Gap.none : Gap := ⟨[], false, [], []⟩

/-- What the white space stands for: one break stands for a space, further ones for themselves. -/
def Gap.text (g : Gap) : List Char :=
  if g.broken then
    if g.first = ['\n'] then (if g.more = [] then [' '] else g.more) else g.first ++ g.more
  else g.blanks

/-- Passes blanks and breaks.  A tab in the indentation below `least` columns is a fault when
    `strict`. -/
def gap (strict : Bool) (least : Nat) : Nat → Gap → Cursor → Except Fault (Gap × Cursor)
  | 0, g, c => .ok (g, c)
  | fuel + 1, g, c =>
    match c.rest with
    | x :: _ =>
      if isBlank x then
        if strict ∧ g.broken ∧ c.column < least ∧ x = '\t' then .error .tabInIndentation
        else
          gap strict least fuel (if g.broken then g else { g with blanks := g.blanks ++ [x] })
            c.skip
      else if isBreak x then
        if g.broken then gap strict least fuel { g with more := g.more ++ c.lineBreak } c.skipLine
        else gap strict least fuel ⟨[], true, c.lineBreak, []⟩ c.skipLine
      else .ok (g, c)
    | [] => .ok (g, c)

/-! ### Quoted scalars -/

def namedEscape? (x : Char) : Option Nat :=
  match x with
  | '0' => some 0x00
  | 'a' => some 0x07
  | 'b' => some 0x08
  | 't' | '\t' => some 0x09
  | 'n' => some 0x0A
  | 'v' => some 0x0B
  | 'f' => some 0x0C
  | 'r' => some 0x0D
  | 'e' => some 0x1B
  | ' ' => some 0x20
  | '"' => some 0x22
  | '/' => some 0x2F
  | '\\' => some 0x5C
  | 'N' => some 0x85
  | '_' => some 0xA0
  | 'L' => some 0x2028
  | 'P' => some 0x2029
  | _ => none

def escapeWidth? (x : Char) : Option Nat :=
  match x with
  | 'x' => some 2
  | 'u' => some 4
  | 'U' => some 8
  | _ => none

def hexValue? (ds : List Char) : Option Nat :=
  ds.foldlM (fun n d => (hexDigit? d).map (n * 16 + ·)) 0

def escape (c : Cursor) : Except Fault (Char × Cursor) :=
  match c.rest with
  | _ :: x :: rest =>
    match namedEscape? x, escapeWidth? x with
    | some n, _ => .ok (Char.ofNat n, c.skipMany 2)
    | none, some width =>
      let ds := rest.take width
      match hexValue? ds with
      | some n =>
        if ds.length < width ∨ (0xD800 ≤ n ∧ n ≤ 0xDFFF) ∨ 0x10FFFF < n then .error .badEscape
        else .ok (Char.ofNat n, c.skipMany (2 + width))
      | none => .error .badEscape
    | none, none => .error .badEscape
  | _ => .error .badEscape

/-- The rest of a quoted scalar after the characters in `acc`, which are last first.  An escaped
    line break counts as a gap that stands for nothing. -/
def quotedText (single : Bool) : Nat → List Char → Cursor → Except Fault (List Char × Cursor)
  | 0, _, _ => .error .unclosedQuote
  | fuel + 1, acc, c =>
    let white (g : Gap) (c : Cursor) : Except Fault (List Char × Cursor) := do
      let (g, c) ← gap false 0 c.fuel g c
      if c.atDocumentMark then throw Fault.documentMarkInQuote
      quotedText single fuel (g.text.reverse ++ acc) c
    match c.rest with
    | [] => .error .unclosedQuote
    | x :: rest =>
      if isBlank x || isBreak x then white Gap.none c
      else if single then
        if x = '\'' then
          if rest.head? = some '\'' then quotedText single fuel ('\'' :: acc) (c.skipMany 2)
          else .ok (acc.reverse, c.skip)
        else quotedText single fuel (x :: acc) c.skip
      else if x = '"' then .ok (acc.reverse, c.skip)
      else if x = '\\' then
        if rest.head?.any isBreak then white ⟨[], true, [], []⟩ c.skip.skipLine
        else do
          let (y, c) ← c.escape
          quotedText single fuel (y :: acc) c
      else quotedText single fuel (x :: acc) c.skip

def quoted (single : Bool) (c : Cursor) : Except Fault (Token × Cursor) := do
  let (text, d) ← quotedText single c.fuel [] c.skip
  pure (Token.scalar .quoted text, d)

/-! ### Plain scalars -/

/-- The rest of a plain scalar after the characters in `acc`, which are last first, and the white
    space after them; the result also says whether a line break was passed after the last
    character. -/
def plainText (inFlow : Bool) (least : Nat) :
    Nat → List Char → Gap → Cursor → Except Fault (List Char × Bool × Cursor)
  | 0, acc, g, c => .ok (acc.reverse, g.broken, c)
  | fuel + 1, acc, g, c =>
    match c.rest with
    | [] => .ok (acc.reverse, g.broken, c)
    | x :: rest =>
      if isBlank x || isBreak x then do
        let (g, c) ← gap true least c.fuel Gap.none c
        if !inFlow ∧ c.column < least then pure (acc.reverse, g.broken, c)
        else if c.atDocumentMark ∨ c.sees '#' then pure (acc.reverse, g.broken, c)
        else plainText inFlow least fuel acc g c
      else if inFlow ∧ x = ':' ∧ rest.head?.any (",?[]\x7b\x7d".toList.contains ·) then
        .error .strayColon
      else if (x = ':' ∧ atBlank rest) ∨ (inFlow ∧ ",[]\x7b\x7d".toList.contains x) then
        .ok (acc.reverse, g.broken, c)
      else plainText inFlow least fuel (x :: (g.text.reverse ++ acc)) Gap.none c.skip

/-- A plain scalar, and whether it ended after a line break. -/
def plain (inFlow : Bool) (least : Nat) (c : Cursor) : Except Fault (Token × Bool × Cursor) := do
  let (text, broken, d) ← plainText inFlow least c.fuel [] Gap.none c
  pure (Token.scalar .plain text, broken, d)

/-! ### Block scalars -/

/-- What happens to the breaks at the end of a block scalar. -/
inductive Chomp where
  | strip
  | clip
  | keep
deriving DecidableEq

def chomp? (x : Option Char) : Option Chomp :=
  if x = some '+' then some .keep else if x = some '-' then some .strip else none

/-- The indentation that this character asks for; zero is a fault. -/
def increment? (x : Option Char) : Except Fault (Option Nat) :=
  match x with
  | some d => if d = '0' then .error .badBlockHeader
    else .ok (if d.isDigit then some (d.toNat - 48) else none)
  | none => .ok none

/-- The header after the indicator: chomping and indentation in either order. -/
def blockHeader (c : Cursor) : Except Fault (Chomp × Option Nat × Cursor) := do
  match chomp? c.rest.head? with
  | some chomp =>
    let c := c.skip
    match ← increment? c.rest.head? with
    | some n => pure (chomp, some n, c.skip)
    | none => pure (chomp, none, c)
  | none =>
    match ← increment? c.rest.head? with
    | some n =>
      let c := c.skip
      match chomp? c.rest.head? with
      | some chomp => pure (chomp, some n, c.skip)
      | none => pure (.clip, some n, c)
    | none => pure (.clip, none, c)

/-- Passes the breaks and the indentation before a line of a block scalar.  Without a known
    indentation the deepest one met is reported. -/
def blockGap (indent : Option Nat) :
    Nat → Nat → List Char → Cursor → Except Fault (List Char × Nat × Cursor)
  | 0, deepest, breaks, c => .ok (breaks, deepest, c)
  | fuel + 1, deepest, breaks, c =>
    let spaces := (c.rest.takeWhile (· == ' ')).length
    let passed := match indent with
      | some n => min spaces (n - c.column)
      | none => spaces
    let c := c.skipMany passed
    let deepest := max deepest c.column
    let short : Bool := match indent with
      | some n => decide (c.column < n)
      | none => true
    if short && c.sees '\t' then .error .tabInIndentation
    else if c.rest.head?.any isBreak then
      blockGap indent fuel deepest (breaks ++ c.lineBreak) c.skipLine
    else .ok (breaks, deepest, c)

/-- The state between two lines of a block scalar: the text so far, last first, the break after
    the last line, further breaks, and whether the last line began with a blank. -/
structure BlockState where
  text : List Char
  leading : List Char
  trailing : List Char
  blank : Bool

def blockLines (literal : Bool) (indent : Nat) :
    Nat → BlockState → Cursor → Except Fault (BlockState × Cursor)
  | 0, s, c => .ok (s, c)
  | fuel + 1, s, c =>
    if c.column ≠ indent ∨ c.rest = [] then .ok (s, c)
    else do
      let blank := c.rest.head?.any isBlank
      let joint :=
        if !literal ∧ s.leading.head? = some '\n' ∧ !s.blank ∧ !blank then
          if s.trailing = [] then [' '] else []
        else s.leading
      let (line, d) := c.takeWhile (!isBreak ·)
      let text := line.reverse ++ (s.trailing.reverse ++ (joint.reverse ++ s.text))
      let leading := d.lineBreak
      let d := d.skipLine
      let (trailing, _, d) ← blockGap (some indent) d.fuel 0 [] d
      blockLines literal indent fuel ⟨text, leading, trailing, blank⟩ d

/-- A literal or folded block scalar inside a block indented by `parent` columns, if any. -/
def block (literal : Bool) (parent : Option Nat) (c : Cursor) : Except Fault (Token × Cursor) := do
  let (chomp, increment, d) ← c.skip.blockHeader
  let d ← d.restOfLine .badBlockHeader
  let given := increment.map fun n => parent.getD 0 + n
  let (trailing, deepest, d) ← blockGap given d.fuel 0 [] d
  let least := match parent with
    | some n => n + 1
    | none => 0
  let indent := given.getD (max deepest (max least 1))
  let (s, d) ← blockLines literal indent d.fuel ⟨[], [], trailing, false⟩ d
  let tail := match chomp with
    | .strip => []
    | .clip => s.leading
    | .keep => s.leading ++ s.trailing
  pure (Token.scalar .quoted (s.text.reverse ++ tail), d)

end Cursor

end ClusterAgent.Yaml
