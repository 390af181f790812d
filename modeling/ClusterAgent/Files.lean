/-
  ClusterAgent/Files.lean
  =======================
  **Reading a file by its path.**

  A directory holds files under paths.  A path is followed part by part: a part must
  be there, and nothing is below a file.  What lies above the directory is not known.
-/
namespace ClusterAgent

/-- Why a file could not be read. -/
inductive Files.Fault where
  | missing
  | isDirectory
  | notDirectory
  | nameTooLong
  | badName
  | notText
  | other (reason : String)
deriving DecidableEq, Repr, Inhabited

/-- The files of a directory, each with its path as a list of names. -/
structure Files where
  files : List (List String × List UInt8)
deriving Repr, Inhabited

namespace Files

def Fault.message : Fault → String
  | .missing => "No such file or directory (os error 2)"
  | .isDirectory => "Is a directory (os error 21)"
  | .notDirectory => "Not a directory (os error 20)"
  | .nameTooLong => "File name too long (os error 36)"
  | .badName => "file name contained an unexpected NUL byte"
  | .notText => "stream did not contain valid UTF-8"
  | .other reason => reason

def parts (path : String) : List String := path.splitOn "/"

def ofList (files : List (String × List UInt8)) : Files :=
  ⟨files.map fun (path, bytes) => ((parts path).filter fun p => p ≠ "" ∧ p ≠ ".", bytes)⟩

/-- What a path can lead to. -/
inductive Place where
  | file (bytes : List UInt8)
  /-- A directory that is known, by its path. -/
  | inside (path : List String)
  | above (levels : Nat)
  | elsewhere

def find? (d : Files) (path : List String) : Option Place :=
  match d.files.find? (·.1 = path) with
  | some (_, bytes) => some (.file bytes)
  | none =>
    if path = [] ∨ d.files.any (fun f => path.isPrefixOf f.1) then some (.inside path) else none

/-- The longest name in bytes. -/
def longestName : Nat := 255

def step (d : Files) (start : Place) (part : String) : Except Fault Place :=
  match start with
  | .file _ => .error .notDirectory
  | .inside path =>
    if part = "" ∨ part = "." then .ok start
    else if part = ".." then
      .ok (if path = [] then .above 1 else .inside path.dropLast)
    else if longestName < part.utf8ByteSize then .error .nameTooLong
    else
      match d.find? (path ++ [part]) with
      | some place => .ok place
      | none => .error .missing
  | .above levels =>
    if part = "" ∨ part = "." then .ok start
    else if part = ".." then .ok (.above (levels + 1))
    else if longestName < part.utf8ByteSize then .error .nameTooLong
    else .error .missing
  | .elsewhere =>
    if part = "" ∨ part = "." ∨ part = ".." then .ok start
    else if longestName < part.utf8ByteSize then .error .nameTooLong
    else .error .missing

def follow (d : Files) (path : String) : Except Fault Place :=
  match parts path with
  | "" :: rest =>
    if rest = [] then .error .missing else rest.foldlM (step d) .elsewhere
  | ps => ps.foldlM (step d) (.inside [])

def read (d : Files) (path : String) : Except Fault (List UInt8) :=
  if path.toList.any (· == '\x00') then .error .badName
  else
    match d.follow path with
    | .error f => .error f
    | .ok (.file bytes) => .ok bytes
    | .ok _ => .error .isDirectory

end Files

end ClusterAgent
