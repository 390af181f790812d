/-
  ClusterAgent/Toml/Value.lean
  ============================
  **Configuration files as values.**

  A file is a table of tables and values.  A table remembers how it came about,
  because that decides who may still add to it: a table under a header is closed once
  another header starts, a table written in braces is closed at its brace.
-/
namespace ClusterAgent

/-- How a table came about. -/
inductive Toml.Shape where
  | inline
  | header
  /-- It is named only on the way to the header of another table. -/
  | implied
  /-- It is named on the way to a dotted key. -/
  | dotted
deriving DecidableEq, Repr, Inhabited

/-- A value of a configuration file.  Numbers with a fraction and dates are kept as they are
    written. -/
inductive Toml where
  | string (text : String)
  | integer (n : Int)
  | float (literal : String)
  | boolean (b : Bool)
  /-- A date, a time of day, or both. -/
  | moment (literal : String)
  | array (items : List Toml)
  | table (shape : Toml.Shape) (entries : List (String × Toml))
  /-- Tables that share one doubled header, in order; each is a table with a header. -/
  | elements (tables : List (List (String × Toml)))
deriving Inhabited

/-- Why a text is no configuration file, or not the one that was expected. -/
inductive Toml.Fault where
  | unexpectedEnd
  | unexpected (c : Char)
  | badEscape
  | badScalar (literal : String)
  | duplicateKey (key : String)
  /-- A key that stands for a plain value is used as a table. -/
  | notATable (key : String)
  /-- Tables and arrays are nested too deep, or a key has too many parts. -/
  | tooDeep
  | wrongType (expected : String)
  | missingField (name : String)
deriving DecidableEq, Repr, Inhabited

namespace Toml

def Fault.message : Fault → String
  | .unexpectedEnd => "unexpected end of input"
  | .unexpected c => "unexpected character " ++ c.toString
  | .badEscape => "invalid escape sequence"
  | .badScalar literal => "invalid value " ++ literal
  | .duplicateKey key => "duplicate key " ++ key
  | .notATable key => "key " ++ key ++ " is not a table"
  | .tooDeep => "recursion limit exceeded"
  | .wrongType expected => "invalid type, expected " ++ expected
  | .missingField name => "missing field " ++ name

/-- The entries of a table in order. -/
abbrev Entries := List (String × Toml)

def find? (key : String) (entries : Entries) : Option Toml :=
  (entries.find? (·.1 = key)).map (·.2)

end Toml

end ClusterAgent
