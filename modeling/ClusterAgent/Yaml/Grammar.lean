/-
  ClusterAgent/Yaml/Grammar.lean
  ==============================
  **The document that a list of tokens is.**

  A text holds one document or none; directives may come before it.  Where the
  grammar allows a node and none is written, the node is an empty plain scalar.
  The functions call each other only after a token has been used up or the
  collection has been entered, so twice the number of tokens bounds their depth.
-/
import ClusterAgent.Yaml.Node

namespace ClusterAgent.Yaml

/-- What has been found on the way: the tokens that are left, the anchors by name, and the counts
    of a document. -/
structure Walk where
  tokens : List Token
  handles : List (List Char × List UInt8)
  names : List (List Char × Nat)
  anchored : List Anchored
  anchors : Nat
  size : Nat
deriving Repr

namespace Walk

def peek? (w : Walk) : Option Token := w.tokens.head?

def drop1 (w : Walk) : Walk := { w with tokens := w.tokens.drop 1 }

def count (w : Walk) (n : Nat) : Walk := { w with size := w.size + n }

def empty (w : Walk) : Node × Walk :=
  (.scalar none .plain [], w.count 1)

/-- A mark that an anchor leaves: the number of the anchor and the place among all of them. -/
abbrev Mark := Option (Nat × Nat)

def mark (w : Walk) (anchor : Option (List Char)) : Mark × Walk :=
  match anchor with
  | none => (none, w)
  | some name =>
    let number := w.names.length
    let names := (name, number) :: w.names.filter (·.1 != name)
    (some (number, w.anchors), { w with names, anchors := w.anchors + 1 })

def keep (w : Walk) (mark : Mark) (node : Node) : Node × Walk :=
  match mark with
  | none => (node, w)
  | some (number, order) => (node, { w with anchored := ⟨number, order, node⟩ :: w.anchored })

def tagOf (w : Walk) (handle : List Char) (suffix : List UInt8) : Except Fault (List UInt8) :=
  if handle = [] then .ok suffix
  else
    match w.handles.find? (·.1 == handle) with
    | some (_, value) => .ok (value ++ suffix)
    | none => .error .undefinedHandle

/-- Anchor and tag of a node, in either order. -/
def properties (w : Walk) :
    Except Fault (Option (List Char) × Option (List UInt8) × Walk) :=
  match w.tokens with
  | .anchor name :: .tag handle suffix :: rest => do
    .ok (some name, some (← w.tagOf handle suffix), { w with tokens := rest })
  | .tag handle suffix :: .anchor name :: rest => do
    .ok (some name, some (← w.tagOf handle suffix), { w with tokens := rest })
  | .anchor name :: rest => .ok (some name, none, { w with tokens := rest })
  | .tag handle suffix :: rest => do
    .ok (none, some (← w.tagOf handle suffix), { w with tokens := rest })
  | _ => .ok (none, none, w)

/-- The tag of one exclamation mark, which says that a scalar is what it looks like. -/
def plainTag : List UInt8 := [0x21]

mutual
/-- A node.  Only in a block may block collections follow, and only as the value of a block mapping
    a sequence without indentation. -/
def node (inBlock indentless : Bool) : Nat → Walk → Except Fault (Node × Walk)
  | 0, _ => .error .unexpectedToken
  | fuel + 1, w =>
    match w.peek? with
    | some (.alias name) =>
      match w.names.find? (·.1 == name) with
      | some (_, number) => .ok (.alias number, w.drop1.count 1)
      | none => .error .unknownAlias
    | _ => do
      let (anchor, tag, w) ← w.properties
      let (mark, w) := w.mark anchor
      match w.peek? with
      | some .blockEntry =>
        if indentless then
          let (items, w) ← indentlessItems fuel w
          .ok (w.keep mark (.sequence tag items))
        else w.bare tag mark
      | some (.scalar style text) =>
        let tag := if tag = some plainTag then none else tag
        .ok ((w.drop1.count 1).keep mark (.scalar tag style text))
      | some .flowSequenceStart =>
        let (items, w) ← flowItems true fuel w.drop1
        .ok ((w.count 2).keep mark (.sequence tag items))
      | some .flowMappingStart =>
        let (entries, w) ← flowEntries true fuel w.drop1
        .ok ((w.count 2).keep mark (.mapping tag entries))
      | some .blockSequenceStart =>
        if inBlock then
          let (items, w) ← blockItems fuel w.drop1
          .ok ((w.count 2).keep mark (.sequence tag items))
        else w.bare tag mark
      | some .blockMappingStart =>
        if inBlock then
          let (entries, w) ← blockEntries fuel w.drop1
          .ok ((w.count 2).keep mark (.mapping tag entries))
        else w.bare tag mark
      | _ => w.bare tag mark

/-- A node of which only properties are written. -/
def bare (w : Walk) (tag : Option (List UInt8)) (mark : Mark) : Except Fault (Node × Walk) :=
  if tag.isSome ∨ mark.isSome then .ok ((w.count 1).keep mark (.scalar tag .plain []))
  else .error .unexpectedToken

def blockItems : Nat → Walk → Except Fault (List Node × Walk)
  | 0, _ => .error .unexpectedToken
  | fuel + 1, w =>
    match w.peek? with
    | some .blockEntry => do
      let w := w.drop1
      let (item, w) ←
        match w.peek? with
        | some .blockEntry | some .blockEnd => .ok w.empty
        | _ => node true false fuel w
      let (items, w) ← blockItems fuel w
      .ok (item :: items, w)
    | some .blockEnd => .ok ([], w.drop1)
    | _ => .error .unexpectedToken

/-- The items of a sequence at the column of the mapping that it is a value of. -/
def indentlessItems : Nat → Walk → Except Fault (List Node × Walk)
  | 0, _ => .error .unexpectedToken
  | fuel + 1, w =>
    match w.peek? with
    | some .blockEntry => do
      let w := w.drop1
      let (item, w) ←
        match w.peek? with
        | some .blockEntry | some .key | some .value | some .blockEnd => .ok w.empty
        | _ => node true false fuel w
      let (items, w) ← indentlessItems fuel w
      .ok (item :: items, w)
    | _ => .ok ([], w.count 2)

def blockEntries : Nat → Walk → Except Fault (List (Node × Node) × Walk)
  | 0, _ => .error .unexpectedToken
  | fuel + 1, w =>
    match w.peek? with
    | some .key => do
      let w := w.drop1
      let (key, w) ←
        match w.peek? with
        | some .key | some .value | some .blockEnd => .ok w.empty
        | _ => node true true fuel w
      let (value, w) ←
        match w.peek? with
        | some .value =>
          let w := w.drop1
          match w.peek? with
          | some .key | some .value | some .blockEnd => .ok w.empty
          | _ => node true true fuel w
        | _ => .ok w.empty
      let (entries, w) ← blockEntries fuel w
      .ok ((key, value) :: entries, w)
    | some .blockEnd => .ok ([], w.drop1)
    | _ => .error .unexpectedToken

def flowItems (first : Bool) : Nat → Walk → Except Fault (List Node × Walk)
  | 0, _ => .error .unexpectedToken
  | fuel + 1, w =>
    match w.peek? with
    | some .flowSequenceEnd => .ok ([], w.drop1)
    | token => do
      if !first ∧ token ≠ some .flowEntry then throw Fault.unexpectedToken
      let w := if first then w else w.drop1
      match w.peek? with
      | some .flowSequenceEnd => .ok ([], w.drop1)
      | some .key =>
        let (pair, w) ← flowPair fuel w.drop1
        let (items, w) ← flowItems false fuel w
        .ok (pair :: items, w)
      | _ =>
        let (item, w) ← node false false fuel w
        let (items, w) ← flowItems false fuel w
        .ok (item :: items, w)

/-- A mapping of one entry written inside a flow sequence without braces.  Where its key is empty,
    the token that shows this is passed. -/
def flowPair : Nat → Walk → Except Fault (Node × Walk)
  | 0, _ => .error .unexpectedToken
  | fuel + 1, w => do
    let (key, w) ←
      match w.peek? with
      | some .value | some .flowEntry | some .flowSequenceEnd => .ok w.drop1.empty
      | _ => node false false fuel w
    let (value, w) ←
      match w.peek? with
      | some .value =>
        let w := w.drop1
        match w.peek? with
        | some .flowEntry | some .flowSequenceEnd => .ok w.empty
        | _ => node false false fuel w
      | _ => .ok w.empty
    .ok (.mapping none [(key, value)], w.count 2)

def flowEntries (first : Bool) : Nat → Walk → Except Fault (List (Node × Node) × Walk)
  | 0, _ => .error .unexpectedToken
  | fuel + 1, w =>
    match w.peek? with
    | some .flowMappingEnd => .ok ([], w.drop1)
    | token => do
      if !first ∧ token ≠ some .flowEntry then throw Fault.unexpectedToken
      let w := if first then w else w.drop1
      match w.peek? with
      | some .flowMappingEnd => .ok ([], w.drop1)
      | some .key =>
        let w := w.drop1
        let (key, w) ←
          match w.peek? with
          | some .value | some .flowEntry | some .flowMappingEnd => .ok w.empty
          | _ => node false false fuel w
        let (value, w) ←
          match w.peek? with
          | some .value =>
            let w := w.drop1
            match w.peek? with
            | some .flowEntry | some .flowMappingEnd => .ok w.empty
            | _ => node false false fuel w
          | _ => .ok w.empty
        let (entries, w) ← flowEntries false fuel w
        .ok ((key, value) :: entries, w)
      | _ =>
        let (key, w) ← node false false fuel w
        let (value, w) := w.empty
        let (entries, w) ← flowEntries false fuel w
        .ok ((key, value) :: entries, w)
end

/-! ### Directives and documents -/

def defaultHandles : List (List Char × List UInt8) :=
  [(['!'], [0x21]), (['!', '!'], "tag:yaml.org,2002:".toUTF8.toList)]

/-- Reads the directives before a document: one version at most, of the first line of versions, and
    each handle once. -/
def directives (versioned : Bool) (w : Walk) :
    List Token → Except Fault (Walk × List Token)
  | .version major minor :: rest =>
    if versioned ∨ major ≠ 1 ∨ (minor ≠ 1 ∧ minor ≠ 2) then .error .repeatedDirective
    else directives true w rest
  | .handle name value :: rest =>
    if w.handles.any (·.1 == name) then .error .repeatedDirective
    else directives versioned { w with handles := w.handles ++ [(name, value)] } rest
  | rest => .ok (w, rest)

/-- Whether a token can come before an explicit document only. -/
def isExplicitStart : Token → Bool
  | .version .. | .handle .. | .documentStart => true
  | _ => false

def endsDocument : Token → Bool
  | .version .. | .handle .. | .documentStart | .documentEnd => true
  | _ => false

def onlyEnds (w : Walk) (root : Node) : Except Fault Document :=
  if w.tokens.all (· == .documentEnd) then .ok ⟨root, w.anchored, w.size⟩
  else .error .severalDocuments

end Walk

/-- The document that the tokens are; `none` if there are no tokens. -/
def Document.ofTokens? (tokens : List Token) : Except Fault (Option Document) := do
  let start : Walk := ⟨tokens, [], [], [], 0, 0⟩
  let fuel := 2 * tokens.length + 2
  match tokens with
  | [] => .ok none
  | first :: _ =>
    if Walk.isExplicitStart first then
      let (w, rest) ← start.directives false tokens
      let missing := Walk.defaultHandles.filter fun (h : List Char × List UInt8) =>
        !w.handles.any (·.1 == h.1)
      let w := { w with handles := w.handles ++ missing }
      match rest with
      | .documentStart :: rest =>
        let w := { w with tokens := rest }
        match rest with
        | [] =>
          let (root, w) := w.empty
          .ok (some (← w.onlyEnds root))
        | t :: _ =>
          if Walk.endsDocument t then
            let (root, w) := w.empty
            .ok (some (← w.onlyEnds root))
          else
            let (root, w) ← w.node true false fuel
            .ok (some (← w.onlyEnds root))
      | _ => .error .unexpectedToken
    else
      let w := { start with handles := Walk.defaultHandles }
      let (root, w) ← w.node true false fuel
      .ok (some (← w.onlyEnds root))

end ClusterAgent.Yaml
