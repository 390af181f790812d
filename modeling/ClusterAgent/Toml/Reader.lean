/-
  ClusterAgent/Toml/Reader.lean
  =============================
  **Reading a configuration file.**

  A file is a sequence of lines, each a header or a key with a value.  What follows a
  header belongs to its table.  Values may be nested, but only to a fixed depth.
-/
import ClusterAgent.Toml.Lexeme
import ClusterAgent.Toml.Scalar
import ClusterAgent.Toml.Table

namespace ClusterAgent.Toml

open Lexeme (unexpected skipSpace skipBlank lineEnd key)

/-! ### Values -/

def equals (cs : List Char) : Except Fault (List Char) :=
  match skipSpace cs with
  | '=' :: rest => .ok (skipSpace rest)
  | rest => .error (unexpected rest)

mutual

/-- Reads a value; arrays and tables in braces may be nested `depth` deep. -/
def value (fuel depth : Nat) (cs : List Char) : Except Fault (Toml × List Char) :=
  match fuel with
  | 0 => .error .tooDeep
  | fuel + 1 =>
    match Lexeme.string? cs with
    | some found => do
      let (s, rest) ← found
      return (.string s, rest)
    | none =>
      match cs, depth with
      | '[' :: _, 0 => .error .tooDeep
      | '{' :: _, 0 => .error .tooDeep
      | '[' :: rest, depth + 1 => items fuel depth [] rest
      | '{' :: rest, depth + 1 =>
        match skipSpace rest with
        | '}' :: rest => .ok (.table .inline [], rest)
        | rest => pairs fuel depth [] rest
      | _, _ => Scalar.read cs

/-- Reads the items of an array up to its bracket; `acc` holds those before, last first. -/
def items (fuel depth : Nat) (acc : List Toml) (cs : List Char) :
    Except Fault (Toml × List Char) :=
  match fuel with
  | 0 => .error .tooDeep
  | fuel + 1 =>
    match skipBlank false cs with
    | ']' :: rest => .ok (.array acc.reverse, rest)
    | cs => do
      let (v, rest) ← value fuel depth cs
      match skipBlank false rest with
      | ',' :: rest => items fuel depth (v :: acc) rest
      | ']' :: rest => return (.array (v :: acc).reverse, rest)
      | rest => .error (unexpected rest)

/-- Reads the entries of a table up to its brace; there is one after every comma. -/
def pairs (fuel depth : Nat) (entries : Entries) (cs : List Char) :
    Except Fault (Toml × List Char) :=
  match fuel with
  | 0 => .error .tooDeep
  | fuel + 1 => do
    let ((path, name), rest) ← key cs
    let (v, rest) ← value fuel depth (← equals rest)
    let entries ← define path name v .inline entries
    match skipSpace rest with
    | ',' :: rest => pairs fuel depth entries rest
    | '}' :: rest => return (.table .inline entries, rest)
    | rest => .error (unexpected rest)

end

def readValue (cs : List Char) : Except Fault (Toml × List Char) :=
  value (2 * cs.length + 2) (Lexeme.depthLimit - 1) cs

/-! ### Lines -/

/-- A file so far: its root table and the path of the table that lines belong to. -/
structure Draft where
  root : Entries
  here : List String

def Draft.empty : Draft := ⟨[], []⟩

def header (d : Draft) (cs : List Char) : Except Fault (Draft × List Char) := do
  let ((path, name), rest) ← key cs
  match skipSpace rest with
  | ']' :: rest =>
    let root ← openTable path name d.root
    return (⟨root, path ++ [name]⟩, ← lineEnd rest)
  | rest => .error (unexpected rest)

def doubledHeader (d : Draft) (cs : List Char) : Except Fault (Draft × List Char) := do
  let ((path, name), rest) ← key cs
  match skipSpace rest with
  | ']' :: ']' :: rest =>
    let root ← openElement path name d.root
    return (⟨root, path ++ [name]⟩, ← lineEnd rest)
  | rest => .error (unexpected rest)

def definition (d : Draft) (cs : List Char) : Except Fault (Draft × List Char) := do
  let ((path, name), rest) ← key cs
  let (v, rest) ← readValue (← equals rest)
  let root ← within .implied d.here (define path name v) .header d.root
  return ({ d with root }, ← lineEnd rest)

def line (d : Draft) (cs : List Char) : Except Fault (Draft × List Char) :=
  match cs with
  | '[' :: '[' :: rest => doubledHeader d rest
  | '[' :: rest => header d rest
  | cs => definition d cs

def lines : (fuel : Nat) → Draft → List Char → Except Fault Entries
  | 0, _, cs => .error (unexpected cs)
  | fuel + 1, d, cs =>
    match skipBlank false cs with
    | [] => .ok d.root
    | cs => do
      let (d, rest) ← line d cs
      lines fuel d rest

/-- The root table of a file; a byte-order mark at its start counts for nothing. -/
def read (text : String) : Except Fault Entries :=
  let cs := match text.toList with
    | '\ufeff' :: rest => rest
    | cs => cs
  lines (cs.length + 1) Draft.empty cs

end ClusterAgent.Toml
