/-
  ClusterAgent/Yaml/Reader.lean
  =============================
  **The JSON value that a YAML text stands for.**

  Aliases are replaced by what they mean, which is limited in two ways: collections
  may nest 128 deep, and there may be a hundred replacements for every start, end and
  leaf of the document.  Keys are the texts of scalars, and of two equal keys the
  later counts.
-/
import ClusterAgent.Yaml.Tokens
import ClusterAgent.Yaml.Grammar
import ClusterAgent.Yaml.Scalar

namespace ClusterAgent.Yaml

namespace Document

/-- The number of collections that may be open at a time. -/
def maxDepth : Nat := 128

def follow (d : Document) (jumps : Nat) : Node → Except Fault (Node × Nat)
  | .alias number =>
    if d.size * 100 < jumps + 1 then .error .tooManyAliases
    else
      match d.target? number with
      | some node => .ok (node, jumps + 1)
      | none => .error .unknownAlias
  | node => .ok (node, jumps)

/-- Whether a tag is one of the application: an exclamation mark before text. -/
def isLocal (tag : Option (List UInt8)) : Bool :=
  match tag with
  | some (0x21 :: rest) => (String.fromUTF8? ⟨rest.toArray⟩).isSome
  | _ => false

def scalarValue (tag : Option (List UInt8)) (style : Style) (text : List Char) :
    Except Fault Json :=
  let s := String.ofList text
  let plainly := if style = .plain then Scalar.resolve s else .ok (.string s)
  match tag with
  | none => plainly
  | some bytes =>
    if isLocal tag then .error .taggedValue
    else if bytes.head? = some 0x21 then plainly
    else Scalar.resolveTagged bytes s

def keyText (d : Document) (jumps : Nat) (key : Node) : Except Fault (String × Nat) := do
  match ← d.follow jumps key with
  | (.scalar _ _ text, jumps) => .ok (String.ofList text, jumps)
  | _ => .error .keyNotScalar

/-- The value of a node in which so many collections may still be opened; `jumps` counts the
    replacements. -/
def value (d : Document) : Nat → Nat → Node → Except Fault (Json × Nat)
  | depth, jumps, node => do
    let (node, jumps) ← d.follow jumps node
    match node with
    | .scalar tag style text => .ok (← scalarValue tag style text, jumps)
    | .alias _ => .error .unknownAlias
    | .sequence tag items =>
      if isLocal tag then .error .taggedValue
      else
        match depth with
        | 0 => .error .tooDeep
        | depth + 1 =>
          let (values, jumps) ← items.foldlM (fun (values, jumps) item => do
            let (v, jumps) ← d.value depth jumps item
            pure (v :: values, jumps)) (([] : List Json), jumps)
          .ok (.array values.reverse, jumps)
    | .mapping tag entries =>
      if isLocal tag then .error .taggedValue
      else
        match depth with
        | 0 => .error .tooDeep
        | depth + 1 =>
          let (fields, jumps) ← entries.foldlM (fun (fields, jumps) entry => do
            let (key, jumps) ← d.keyText jumps entry.1
            let (v, jumps) ← d.value depth jumps entry.2
            pure (Json.insert key v fields, jumps)) (([] : List (String × Json)), jumps)
          .ok (.object fields, jumps)

end Document

/-- The value that a text stands for; no document stands for null. -/
def read (text : String) : Except Fault Json := do
  let tokens ← tokens text.toList
  match ← Document.ofTokens? tokens with
  | none => .ok .null
  | some d => .ok (← d.value Document.maxDepth 0 d.root).1

end ClusterAgent.Yaml
