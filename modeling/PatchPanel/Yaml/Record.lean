import PatchPanel.Yaml.Node

/-!
Typed values out of YAML nodes: texts, flags, choices by name, values that may be missing, and
records. A record is a mapping, or the list of its fields' values, or nothing at all.
-/
namespace PatchPanel.Yaml.Node

variable {α : Type}

/-- The plain texts for nothing. -/
def isNull (text : List Char) : Bool :=
  ["null", "Null", "NULL", "~"].contains (String.ofList text)

def text? : Node → Option String
  | .scalar _ _ text => some (String.ofList text)
  | _ => none

def flagNames : List (String × Bool) :=
  [("true", true), ("True", true), ("TRUE", true),
    ("false", false), ("False", false), ("FALSE", false)]

/-- A flag: a plain scalar, or a literal block that is tagged as one. -/
def flag? : Node → Option Bool
  | .scalar .plain _ text => flagNames.lookup (String.ofList text)
  | .scalar .literal (some tag) text =>
    if String.ofList tag = "tag:yaml.org,2002:bool" then flagNames.lookup (String.ofList text)
    else none
  | _ => none

/-- One out of a choice of names. The name is a scalar, or the local tag of nothing. -/
def choice? (names : List (String × α)) : Node → Option α
  | .scalar style (some ('!' :: name)) text =>
    if style = .plain && (text.isEmpty || isNull text) then names.lookup (String.ofList name)
    else none
  | .scalar _ _ text => names.lookup (String.ofList text)
  | _ => none

/-- A value that may be given as nothing: an empty plain scalar or a plain text for nothing. A scalar
that is tagged as nothing has to be one of these texts. -/
def optional? (read : Node → Option α) (n : Node) : Option (Option α) :=
  match n with
  | .scalar .plain none text =>
    if text.isEmpty || isNull text then some none else (read n).map some
  | .scalar .plain (some tag) text =>
    if String.ofList tag = "tag:yaml.org,2002:null" then
      if isNull text then some none else none
    else (read n).map some
  | _ => (read n).map some

/-- The value of a field that may be missing or given as nothing. -/
def field? (read : Node → Option α) : Option Node → Option (Option α)
  | none => some none
  | some n => optional? read n

/-- The value of a name in a mapping, if it is there at all. A name that stands there more than once
is refused. -/
def member? (entries : List (String × Node)) (name : String) : Option (Option Node) :=
  match entries.filter (fun e => e.1 = name) with
  | [] => some none
  | [e] => some (some e.2)
  | _ => none

/-- The nodes of the fields of a record, in the order of their names. A mapping may have other names
beside them; a list has at least the `required` first ones, and nothing behind the last. -/
def fields? (names : List String) (required : Nat) : Node → Option (List (Option Node))
  | .mapping entries => do
    let entries ← entries.mapM fun e => e.1.text?.map fun key => (key, e.2)
    names.mapM (member? entries)
  | .list items =>
    if required ≤ items.length && items.length ≤ names.length then
      some (items.map some ++ List.replicate (names.length - items.length) none)
    else none
  | .scalar .plain _ [] => some (names.map fun _ => none)
  | .scalar _ _ _ => none

end PatchPanel.Yaml.Node
