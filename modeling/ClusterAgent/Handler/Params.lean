/-
  ClusterAgent/Handler/Params.lean
  ================================
  **The parameters of the handlers.**

  Every field has a default; parameters are read leniently, so a field of the wrong
  type counts as missing.  A terminal size may come as a number or as text, and
  anything else stands for zero.
-/
import ClusterAgent.Json.Record
import ClusterAgent.Text.Blank

namespace ClusterAgent.Handler

open Json (Field Schema asString asInt64 asList)

/-! ### Objects -/

/-- Which objects to list: those whose name contains `name`, in one namespace or in all. -/
structure ListParams where
  name : String
  ns : String
deriving DecidableEq, Repr

/-- Which object to read and in what form. -/
structure GetParams where
  name : String
  ns : String
  output : String
deriving DecidableEq, Repr

structure DeleteTarget where
  name : String
  ns : String
deriving DecidableEq, Repr

/-- The objects to delete, in order. -/
structure DeleteParams where
  resources : List DeleteTarget
deriving DecidableEq, Repr

/-- A document to store, and the name and namespace that it may lack. -/
structure YamlParams where
  name : String
  ns : String
  yaml : String
deriving DecidableEq, Repr

/-- The object to scale and the number of replicas. -/
structure ScaleParams where
  name : String
  ns : String
  replicas : Int
deriving DecidableEq, Repr

def ListParams.schema : Schema ListParams where
  zero := ⟨"", ""⟩
  fields := [
    ⟨"name", String, asString, name, fun v r => { r with name := v }⟩,
    ⟨"namespace", String, asString, ns, fun v r => { r with ns := v }⟩]

def GetParams.schema : Schema GetParams where
  zero := ⟨"", "", ""⟩
  fields := [
    ⟨"name", String, asString, name, fun v r => { r with name := v }⟩,
    ⟨"namespace", String, asString, ns, fun v r => { r with ns := v }⟩,
    ⟨"output", String, asString, output, fun v r => { r with output := v }⟩]

def DeleteTarget.schema : Schema DeleteTarget where
  zero := ⟨"", ""⟩
  fields := [
    ⟨"name", String, asString, name, fun v r => { r with name := v }⟩,
    ⟨"namespace", String, asString, ns, fun v r => { r with ns := v }⟩]

/-- The fields of a delete request; the objects in it are read strictly. -/
def DeleteParams.schema : Schema DeleteParams where
  zero := ⟨[]⟩
  fields := [
    ⟨"resources", List DeleteTarget, asList DeleteTarget.schema.decode, resources,
      fun v _ => ⟨v⟩⟩]

def YamlParams.schema : Schema YamlParams where
  zero := ⟨"", "", ""⟩
  fields := [
    ⟨"name", String, asString, name, fun v r => { r with name := v }⟩,
    ⟨"namespace", String, asString, ns, fun v r => { r with ns := v }⟩,
    ⟨"yaml", String, asString, yaml, fun v r => { r with yaml := v }⟩]

def ScaleParams.schema : Schema ScaleParams where
  zero := ⟨"", "", 0⟩
  fields := [
    ⟨"name", String, asString, name, fun v r => { r with name := v }⟩,
    ⟨"namespace", String, asString, ns, fun v r => { r with ns := v }⟩,
    ⟨"replicas", Int, asInt64, replicas, fun v r => { r with replicas := v }⟩]

/-! ### Sessions -/

/-- The number that digits stand for, if it is below `2 ^ 16`. -/
def sizeOfDigits (cs : List Char) : Nat :=
  let digits := match cs with
    | '+' :: rest => rest
    | _ => cs
  if digits ≠ [] ∧ digits.all Char.isDigit then
    let n := digits.foldl (fun acc c => acc * 10 + (c.toNat - 48)) 0
    if n < Nat.pow 2 16 then n else 0
  else 0

/-- A terminal size, given as a number or as text; anything else is zero. -/
def asSize (j : Json) : Option Nat :=
  some <|
    match j with
    | .number (.int n) => if 0 ≤ n ∧ n < Nat.pow 2 16 then n.toNat else 0
    | .string s => sizeOfDigits (Text.trim s.toList)
    | _ => 0

structure ExecParams where
  name : String
  ns : String
  container : String
  sessionId : String
  rows : Nat
  cols : Nat
deriving DecidableEq, Repr

/-- Input for a shell, and a terminal size if both parts of it are positive. -/
structure StdinParams where
  sessionId : String
  input : String
  width : Nat
  height : Nat
deriving DecidableEq, Repr

structure OpenLogParams where
  name : String
  ns : String
  container : String
  sessionId : String
deriving DecidableEq, Repr

/-- The log session to stop. -/
structure CloseLogParams where
  sessionId : String
deriving DecidableEq, Repr

def ExecParams.schema : Schema ExecParams where
  zero := ⟨"", "", "", "", 0, 0⟩
  fields := [
    ⟨"name", String, asString, name, fun v r => { r with name := v }⟩,
    ⟨"namespace", String, asString, ns, fun v r => { r with ns := v }⟩,
    ⟨"container", String, asString, container, fun v r => { r with container := v }⟩,
    ⟨"session_id", String, asString, sessionId, fun v r => { r with sessionId := v }⟩,
    ⟨"rows", Nat, asSize, rows, fun v r => { r with rows := v }⟩,
    ⟨"cols", Nat, asSize, cols, fun v r => { r with cols := v }⟩]

def StdinParams.schema : Schema StdinParams where
  zero := ⟨"", "", 0, 0⟩
  fields := [
    ⟨"session_id", String, asString, sessionId, fun v r => { r with sessionId := v }⟩,
    ⟨"input", String, asString, input, fun v r => { r with input := v }⟩,
    ⟨"width", Nat, asSize, width, fun v r => { r with width := v }⟩,
    ⟨"height", Nat, asSize, height, fun v r => { r with height := v }⟩]

def OpenLogParams.schema : Schema OpenLogParams where
  zero := ⟨"", "", "", ""⟩
  fields := [
    ⟨"name", String, asString, name, fun v r => { r with name := v }⟩,
    ⟨"namespace", String, asString, ns, fun v r => { r with ns := v }⟩,
    ⟨"container", String, asString, container, fun v r => { r with container := v }⟩,
    ⟨"session_id", String, asString, sessionId, fun v r => { r with sessionId := v }⟩]

def CloseLogParams.schema : Schema CloseLogParams where
  zero := ⟨""⟩
  fields := [⟨"session_id", String, asString, sessionId, fun v _ => ⟨v⟩⟩]

end ClusterAgent.Handler
