import PatchPanel.Yaml.Token

/-!
The tree of a YAML text: scalars, lists and mappings. A node that is left out is an empty plain
scalar, and so is a text without a document. A text with more than one document is refused.
-/
namespace PatchPanel.Yaml

/-- A node of a YAML text. The entries of a mapping stand in the order of the text, and a key may
stand there more than once. -/
inductive Node where
  | scalar (style : Style) (tag : Option (List Char)) (text : List Char)
  | list (items : List Node)
  | mapping (entries : List (Node × Node))
  deriving Repr

/-- What is left to read of a list of tokens, and the nodes that have been given names. -/
structure Reader where
  tokens : List Token
  named : List (List Char × Node)

/-- Reading a part of a tree; none if the tokens make no tree. -/
abbrev Reading := StateT Reader Option

namespace Reading

def peek : Reading (Option Token) := do return (← get).tokens.head?

def skip : Reading Unit := modify fun r => { r with tokens := r.tokens.drop 1 }

/-- Pass over the next token if it is the given one, and say whether it was. -/
def accept (t : Token) : Reading Bool := do
  if (← peek) = some t then
    skip
    return true
  else return false

/-- Pass over the next token, which is the given one. -/
def expect (t : Token) : Reading Unit := do
  if !(← accept t) then failure

/-- The next token is one of the given ones. -/
def stops (ends : List Token) : Reading Bool := do
  match ← peek with
  | some t => return ends.contains t
  | none => return false

def lookup (name : List Char) : Reading Node := do
  match (← get).named.lookup name with
  | some node => return node
  | none => failure

/-- Give a node a name. -/
def give (name : List Char) (node : Node) : Reading Unit :=
  modify fun r => { r with named := (name, node) :: r.named }

/-- The name and the tag in front of a node, in either order. -/
def properties : Reading (Option (List Char) × Option (List Char)) := do
  match ← peek with
  | some (.anchor name) =>
    skip
    match ← peek with
    | some (.tag tag) =>
      skip
      return (some name, some tag)
    | _ => return (some name, none)
  | some (.tag tag) =>
    skip
    match ← peek with
    | some (.anchor name) =>
      skip
      return (some name, some tag)
    | _ => return (none, some tag)
  | _ => return (none, none)

end Reading

/-- Where a node stands, which decides the forms that it may have: between brackets, in a block, or
as the key or value of a block, where the items of a list need not be indented. -/
inductive Place where
  | flow
  | block
  | entry
  deriving DecidableEq, Repr

namespace Node

open Reading

/-- A node that is left out. -/
def empty : Node := .scalar .plain none []

mutual

def read : Nat → Place → Reading Node
  | 0, _ => failure
  | fuel + 1, place => do
    match ← peek with
    | some (.alias name) =>
      skip
      lookup name
    | _ =>
      let (name, tag) ← properties
      let node ← readContent fuel place tag (name.isSome || tag.isSome)
      match name with
      | some name =>
        give name node
        return node
      | none => return node

/-- Read a node behind its properties. Behind a property the node itself may be left out; a mark
without a name is no tag of a scalar. -/
def readContent : Nat → Place → Option (List Char) → Bool → Reading Node
  | 0, _, _, _ => failure
  | fuel + 1, place, tag, marked => do
    match ← peek, place with
    | some .blockItem, .entry => return .list (← readLooseItems fuel)
    | some (.scalar style text), _ =>
      skip
      return .scalar style (tag.filter (· != ['!'])) text
    | some .beginFlowList, _ =>
      skip
      return .list (← readFlowItems fuel true)
    | some .beginFlowMapping, _ =>
      skip
      return .mapping (← readFlowEntries fuel true)
    | some .beginBlockList, .block | some .beginBlockList, .entry =>
      skip
      return .list (← readItems fuel)
    | some .beginBlockMapping, .block | some .beginBlockMapping, .entry =>
      skip
      return .mapping (← readEntries fuel)
    | _, _ => if marked then return .scalar .plain tag [] else failure

/-- Read a node that is left out if one of the given tokens is next. -/
def readUnless : Nat → Place → List Token → Reading Node
  | 0, _, _ => failure
  | fuel + 1, place, ends => do
    if ← stops ends then return empty
    read fuel place

/-- Read the items of a list in a block up to its end. -/
def readItems : Nat → Reading (List Node)
  | 0 => failure
  | fuel + 1 => do
    if ← accept .blockItem then
      let item ← readUnless fuel .block [.blockItem, .endBlock]
      return item :: (← readItems fuel)
    else
      expect .endBlock
      return []

/-- Read the items of a list that is not indented, which ends with its last item. -/
def readLooseItems : Nat → Reading (List Node)
  | 0 => failure
  | fuel + 1 => do
    if ← accept .blockItem then
      let item ← readUnless fuel .block [.blockItem, .key, .value, .endBlock]
      return item :: (← readLooseItems fuel)
    else return []

/-- Read the entries of a mapping in a block up to its end. -/
def readEntries : Nat → Reading (List (Node × Node))
  | 0 => failure
  | fuel + 1 => do
    if ← accept .key then
      let key ← readUnless fuel .entry [.key, .value, .endBlock]
      let value ← readValue fuel .entry [.key, .value, .endBlock]
      return (key, value) :: (← readEntries fuel)
    else
      expect .endBlock
      return []

/-- Read a value behind its mark; without the mark it is left out. -/
def readValue : Nat → Place → List Token → Reading Node
  | 0, _, _ => failure
  | fuel + 1, place, ends => do
    if ← accept .value then readUnless fuel place ends else return empty

/-- Read the items of a list in brackets up to the closing one. A key with its value makes a mapping
of its own; a key that is left out there takes the token behind its mark with it. -/
def readFlowItems : Nat → Bool → Reading (List Node)
  | 0, _ => failure
  | fuel + 1, first => do
    if ← accept .endFlowList then return []
    if !first then expect .flowItem
    if ← accept .endFlowList then return []
    if ← accept .key then
      let ends := [.value, .flowItem, .endFlowList]
      let bare ← stops ends
      let key ← readUnless fuel .flow ends
      if bare then skip
      let value ← readValue fuel .flow [.flowItem, .endFlowList]
      return .mapping [(key, value)] :: (← readFlowItems fuel false)
    else
      let item ← read fuel .flow
      return item :: (← readFlowItems fuel false)

/-- Read the entries of a mapping in brackets up to the closing one. -/
def readFlowEntries : Nat → Bool → Reading (List (Node × Node))
  | 0, _ => failure
  | fuel + 1, first => do
    if ← accept .endFlowMapping then return []
    if !first then expect .flowItem
    if ← accept .endFlowMapping then return []
    if ← accept .key then
      let key ← readUnless fuel .flow [.value, .flowItem, .endFlowMapping]
      let value ← readValue fuel .flow [.flowItem, .endFlowMapping]
      return (key, value) :: (← readFlowEntries fuel false)
    else
      let key ← read fuel .flow
      return (key, empty) :: (← readFlowEntries fuel false)

end

/-- Read a document: its node, or none of it, behind directives and a mark or at once. -/
def readDocument (fuel : Nat) : Reading Node := do
  let tokens := (← get).tokens
  match tokens.dropWhile (· = .directive) with
  | .documentStart :: rest =>
    modify fun r => { r with tokens := rest }
    if rest.isEmpty then return empty
    readUnless fuel .block [.directive, .documentStart, .documentEnd]
  | [] => if tokens.isEmpty then return empty else failure
  | _ => read fuel .block

/-- The tree of a YAML text with at most one document. -/
def ofText? (text : List Char) : Option Node := do
  let tokens ← tokens text
  let (node, r) ← (readDocument (4 * tokens.length + 4)).run ⟨tokens, []⟩
  if r.tokens.all (· = .documentEnd) then some node else none

end Node
end PatchPanel.Yaml
