/-
  ClusterAgent/Yaml/Tokens.lean
  =============================
  **A YAML text as tokens.**

  Two things make this more than splitting.  Block collections start and end where
  the indentation changes, so a stack of indentations is kept.  And a scalar is
  known to be a key only when a colon follows: the place of every token that could
  be a key is kept, and the key token is put in front of it later.  Such a key must
  lie on one line and within 1024 characters.
-/
import ClusterAgent.Yaml.Lexeme

namespace ClusterAgent.Yaml

/-- A place where a key may have started. -/
structure SimpleKey where
  /-- How many tokens came before. -/
  before : Nat
  /-- Whether the line is no valid block content unless this is a key. -/
  required : Bool
  index : Nat
  line : Nat
  column : Nat
deriving Repr

/-- A text of which some tokens have been found. -/
structure Scan where
  cursor : Cursor
  /-- The tokens so far, last first. -/
  tokens : List Token
  /-- The column of the innermost block, if any. -/
  indent : Option Nat
  outer : List (Option Nat)
  flow : Nat
  /-- The possible keys, one place for each open flow collection and one for the block level,
      innermost first. -/
  keys : List (Option SimpleKey)
  keyAllowed : Bool
deriving Repr

namespace Scan

def ofText (cs : List Char) : Scan :=
  ⟨Cursor.ofText cs, [], none, [], 0, [none], true⟩

def emit (s : Scan) (t : Token) : Scan :=
  { s with tokens := t :: s.tokens }

/-- Puts a token in where only so many came before. -/
def emitAt (s : Scan) (before : Nat) (t : Token) : Scan :=
  let later := s.tokens.length - before
  { s with tokens := s.tokens.take later ++ t :: s.tokens.drop later }

/-! ### Indentation -/

def isDeeper (s : Scan) (column : Nat) : Bool :=
  match s.indent with
  | some n => decide (n < column)
  | none => true

/-- Opens a block at a column right of the innermost one. -/
def roll (s : Scan) (column before : Nat) (t : Token) : Scan :=
  if s.flow = 0 ∧ s.isDeeper column then
    { s.emitAt before t with indent := some column, outer := s.indent :: s.outer }
  else s

/-- Closes the blocks that lie right of a column; without a column, all of them. -/
def unrollTo (column : Option Nat) : List (Option Nat) → Scan → Scan
  | [], s => s
  | next :: rest, s =>
    match s.indent with
    | none => s
    | some n =>
      if column.all (· < n) then
        unrollTo column rest { s.emit .blockEnd with indent := next, outer := rest }
      else s

def unroll (s : Scan) (column : Option Nat) : Scan :=
  if s.flow = 0 then unrollTo column s.outer s else s

/-! ### Possible keys -/

/-- Gives up the possible key of the innermost level, which is a fault if it had to be one. -/
def dropKey (s : Scan) : Except Fault Scan :=
  match s.keys with
  | some k :: rest =>
    if k.required then .error .missingColon else .ok { s with keys := none :: rest }
  | _ => .ok s

def noteKey (s : Scan) : Except Fault Scan :=
  if s.keyAllowed then do
    let c := s.cursor
    let required := s.flow = 0 ∧ s.indent = some c.column
    let s ← s.dropKey
    let here := ⟨s.tokens.length, required, c.index, c.line, c.column⟩
    .ok { s with keys := some here :: s.keys.drop 1 }
  else .ok s

/-- Whether a key that may have started there can still be completed here. -/
def isFresh (c : Cursor) (k : SimpleKey) : Bool :=
  !(k.line < c.line || k.index + 1024 < c.index)

def dropStale (s : Scan) : Except Fault Scan := do
  let keys ← s.keys.mapM fun key =>
    match key with
    | some k =>
      if isFresh s.cursor k then .ok (some k)
      else if k.required then .error Fault.missingColon
      else .ok none
    | none => .ok none
  .ok { s with keys }

/-! ### White space and comments -/

/-- Passes white space, comments and breaks up to the next token. -/
def toNextToken : Nat → Scan → Scan
  | 0, s => s
  | fuel + 1, s =>
    let c := s.cursor
    let c := if c.column = 0 ∧ c.rest.head?.any isOrderMark then c.skip else c
    let tabs := s.flow ≠ 0 ∨ !s.keyAllowed
    let c := c.skipWhile fun x => x == ' ' || (tabs && x == '\t')
    let c := if c.sees '#' then c.skipWhile (!isBreak ·) else c
    if c.rest.head?.any isBreak then
      toNextToken fuel { s with cursor := c.skipLine, keyAllowed := s.keyAllowed || s.flow == 0 }
    else { s with cursor := c }

/-! ### One token -/

def take1 (s : Scan) (t : Token) : Scan :=
  { s.emit t with cursor := s.cursor.skip }

def documentMark (s : Scan) (t : Token) : Except Fault Scan := do
  let s ← (s.unroll none).dropKey
  .ok { s.emit t with keyAllowed := false, cursor := s.cursor.skipMany 3 }

def directive (s : Scan) : Except Fault Scan := do
  let s ← (s.unroll none).dropKey
  let (t, c) ← s.cursor.directive
  .ok { s.emit t with keyAllowed := false, cursor := c }

def flowStart (s : Scan) (t : Token) : Except Fault Scan := do
  let s ← s.noteKey
  .ok { s.take1 t with keys := none :: s.keys, flow := s.flow + 1, keyAllowed := true }

def flowEnd (s : Scan) (t : Token) : Except Fault Scan := do
  let s ← s.dropKey
  let s := if s.flow = 0 then s else { s with flow := s.flow - 1, keys := s.keys.drop 1 }
  .ok { s.take1 t with keyAllowed := false }

def flowEntry (s : Scan) : Except Fault Scan := do
  let s ← s.dropKey
  .ok { s.take1 .flowEntry with keyAllowed := true }

/-- A dash before a block entry. -/
def blockEntry (s : Scan) : Except Fault Scan := do
  if s.flow = 0 ∧ !s.keyAllowed then throw Fault.entryNotAllowed
  let s := s.roll s.cursor.column s.tokens.length .blockSequenceStart
  let s ← s.dropKey
  .ok { s.take1 .blockEntry with keyAllowed := true }

/-- A question mark before a key. -/
def explicitKey (s : Scan) : Except Fault Scan := do
  if s.flow = 0 ∧ !s.keyAllowed then throw Fault.keyNotAllowed
  let s := s.roll s.cursor.column s.tokens.length .blockMappingStart
  let s ← s.dropKey
  .ok { s.take1 .key with keyAllowed := s.flow == 0 }

/-- A colon before a value. -/
def value (s : Scan) : Except Fault Scan :=
  match s.keys with
  | some k :: rest =>
    let s := s.emitAt k.before .key
    let s := s.roll k.column k.before .blockMappingStart
    .ok { s.take1 .value with keys := none :: rest, keyAllowed := false }
  | _ => do
    if s.flow = 0 ∧ !s.keyAllowed then throw Fault.valueNotAllowed
    let s := s.roll s.cursor.column s.tokens.length .blockMappingStart
    .ok { s.take1 .value with keyAllowed := s.flow == 0 }

/-- A token that may be a key and that the next token cannot be. -/
def content (s : Scan) (t : Token) (c : Cursor) : Except Fault Scan := do
  let s ← s.noteKey
  .ok { s.emit t with keyAllowed := false, cursor := c }

def blockScalar (s : Scan) (literal : Bool) : Except Fault Scan := do
  let s ← s.dropKey
  let (t, c) ← s.cursor.block literal s.indent
  .ok { s.emit t with keyAllowed := true, cursor := c }

def startsPlain (inFlow : Bool) (cs : List Char) : Bool :=
  match cs with
  | [] => false
  | x :: rest =>
    !(atBlank cs || "-?:,[]\x7b\x7d#&*!|>'\"%@\x60".toList.contains x) ||
      (x == '-' && !(rest.head?.any isBlank)) ||
      (!inFlow && (x == '?' || x == ':') && !atBlank rest)

/-- The next token; the cursor stands at its first character. -/
def fetch (s : Scan) : Except Fault Scan :=
  let c := s.cursor
  let inFlow := s.flow ≠ 0
  match c.rest with
  | [] => .ok s
  | x :: rest =>
    if c.column = 0 ∧ x = '%' then s.directive
    else if c.atDocumentMark then s.documentMark (if x = '-' then .documentStart else .documentEnd)
    else if x = '[' then s.flowStart .flowSequenceStart
    else if x = '\x7b' then s.flowStart .flowMappingStart
    else if x = ']' then s.flowEnd .flowSequenceEnd
    else if x = '\x7d' then s.flowEnd .flowMappingEnd
    else if x = ',' then s.flowEntry
    else if x = '-' ∧ atBlank rest then s.blockEntry
    else if x = '?' ∧ (inFlow ∨ atBlank rest) then s.explicitKey
    else if x = ':' ∧ (inFlow ∨ atBlank rest) then s.value
    else if x = '*' then do
      let (name, d) ← c.anchorName
      s.content (.alias name) d
    else if x = '&' then do
      let (name, d) ← c.anchorName
      s.content (.anchor name) d
    else if x = '!' then do
      let (t, d) ← c.tag inFlow
      s.content t d
    else if x = '|' ∧ !inFlow then s.blockScalar true
    else if x = '>' ∧ !inFlow then s.blockScalar false
    else if x = '\'' then do
      let (t, d) ← c.quoted true
      s.content t d
    else if x = '"' then do
      let (t, d) ← c.quoted false
      s.content t d
    else if startsPlain inFlow c.rest then do
      let least := match s.indent with
        | some n => n + 1
        | none => 0
      let (t, broken, d) ← c.plain inFlow least
      let s ← s.content t d
      .ok { s with keyAllowed := broken }
    else .error .noToken

def finish (s : Scan) : Except Fault (List Token) := do
  let s ← (s.unroll none).dropKey
  .ok s.tokens.reverse

/-- All tokens; each takes at least one character. -/
def run : Nat → Scan → Except Fault (List Token)
  | 0, s => s.finish
  | fuel + 1, s => do
    let s := toNextToken s.cursor.fuel s
    let s ← s.dropStale
    let s := s.unroll (some s.cursor.column)
    if s.cursor.rest = [] then s.finish
    else run fuel (← s.fetch)

end Scan

def tokens (cs : List Char) : Except Fault (List Token) :=
  if cs.all isAllowed then Scan.run (cs.length + 1) (Scan.ofText cs) else .error .forbiddenCharacter

end ClusterAgent.Yaml
