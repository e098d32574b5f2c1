import PatchPanel.Json.Outline
import PatchPanel.Text.Quoted

/-!
Why a text cannot be read as a value of a given form: the text breaks off, or the data in it do
not fit the form.
-/
namespace PatchPanel.Json

/-- What was found where something else was expected. -/
inductive Found where
  | null
  | bool (b : Bool)
  | number (n : Number)
  | string (s : String)
  | sequence
  | map
  deriving DecidableEq, Repr

def Found.text : Found → String
  | .null => "null"
  | .bool b => "boolean `" ++ String.ofList (if b then ['t', 'r', 'u', 'e'] else
      ['f', 'a', 'l', 's', 'e']) ++ "`"
  | .number (.binary x) => "floating point `" ++ String.ofList x.text ++ "`"
  | .number n => "integer `" ++ String.ofList n.text ++ "`"
  | .string s => "string " ++ Text.quote s
  | .sequence => "sequence"
  | .map => "map"

/-- How data fail to fit a form. -/
inductive Mismatch where
  | wrongKind (found : Found) (expected : String)
  | outOfRange (found : Found) (expected : String)
  | wrongLength (length : Nat) (expected : String)
  | missingField (name : String)
  | duplicateField (name : String)
  | unknownField (name : String) (known : List String)
  | unknownVariant (name : String) (known : List String)
  deriving DecidableEq, Repr

/-- A list of permitted names. -/
def alternatives (known : List String) : String :=
  match known.map (fun name => "`" ++ name ++ "`") with
  | [] => "nothing"
  | [a] => a
  | [a, b] => a ++ " or " ++ b
  | names => "one of " ++ ", ".intercalate names

def Mismatch.message : Mismatch → String
  | .wrongKind found expected => "invalid type: " ++ found.text ++ ", expected " ++ expected
  | .outOfRange found expected => "invalid value: " ++ found.text ++ ", expected " ++ expected
  | .wrongLength length expected =>
    "invalid length " ++ toString length ++ ", expected " ++ expected
  | .missingField name => "missing field `" ++ name ++ "`"
  | .duplicateField name => "duplicate field `" ++ name ++ "`"
  | .unknownField name known =>
    "unknown field `" ++ name ++ "`, expected " ++ alternatives known
  | .unknownVariant name known =>
    "unknown variant `" ++ name ++ "`, expected " ++ alternatives known

/-- Why a text cannot be read. -/
inductive Fault where
  | text (b : Break)
  | data (m : Mismatch)
  deriving DecidableEq, Repr

def Fault.message : Fault → String
  | .text .malformed => "syntax"
  | .text .truncated => "eof"
  | .data m => m.message

/-- Where an outline comes from, which decides how a list with too many items is reported: from a
text, where the surplus is a fault of the text; from a data tree; or from a data tree that a tagged
variant was collected into. -/
inductive Source where
  | text
  | tree
  | variant
  deriving DecidableEq, Repr

/-- A number with the word for that many elements. -/
def elements (n : Nat) : String := toString n ++ (if n = 1 then " element" else " elements")

/-- The fault of a list of `total` items of which `wanted` were asked for. -/
def Source.surplus (source : Source) (wanted total : Nat) : Fault :=
  match source with
  | .text => .text .malformed
  | .tree => .data (.wrongLength total "fewer elements in array")
  | .variant => .data (.wrongLength total (elements wanted ++ " in sequence"))

namespace Outline

/-- The kind of value that stands at the outline. -/
def found : Outline → Except Fault Found
  | .null => .ok .null
  | .bool b => .ok (.bool b)
  | .number n => .ok (.number n)
  | .string s => .ok (.string s)
  | .garbled => .error (.text .malformed)
  | .array _ => .ok .sequence
  | .object _ => .ok .map
  | .flawed flaw => .error (.text flaw.reading)

/-- The fault of a value of the wrong kind. -/
def unexpected (o : Outline) (expected : String) : Fault :=
  match o.found with
  | .ok found => .data (.wrongKind found expected)
  | .error fault => fault

end Outline

mutual

/-- Pass over a value. Only a place where the text breaks off is a fault. -/
def Outline.skip : Outline → Except Fault Unit
  | .null | .bool _ | .number _ | .string _ | .garbled => .ok ()
  | .array items => items.skip
  | .object members => members.skip
  | .flawed flaw => .error (.text flaw.skipping)

def Items.skip : Items → Except Fault Unit
  | .close => .ok ()
  | .cut b => .error (.text b)
  | .item first rest =>
    match first.skip with
    | .ok () => rest.skip
    | .error fault => .error fault

def Members.skip : Members → Except Fault Unit
  | .close => .ok ()
  | .cut _ skipping => .error (.text skipping)
  | .noKey _ => .error (.text .malformed)
  | .member _ value rest =>
    match value.skip with
    | .ok () => rest.skip
    | .error fault => .error fault

end

mutual

/-- The data tree at an outline, where at most `room` lists and objects may be open at a time. -/
def Outline.tree (room : Nat) : Outline → Except Fault Json
  | .null => .ok .null
  | .bool b => .ok (.bool b)
  | .number n => .ok (.number n)
  | .string s => .ok (.string s)
  | .garbled => .error (.text .malformed)
  | .array items =>
    match room with
    | 0 => .error (.text .malformed)
    | room + 1 => (items.trees room).map .array
  | .object members =>
    match room with
    | 0 => .error (.text .malformed)
    | room + 1 => (members.trees room).map .object
  | .flawed flaw => .error (.text flaw.reading)

/-- The data trees of the items of a list. -/
def Items.trees (room : Nat) : Items → Except Fault (List Json)
  | .close => .ok []
  | .cut b => .error (.text b)
  | .item first rest => do
    let item ← first.tree room
    let items ← rest.trees room
    return item :: items

/-- The keys and data trees of the members of an object. -/
def Members.trees (room : Nat) : Members → Except Fault (List (String × Json))
  | .close => .ok []
  | .cut reading _ => .error (.text reading)
  | .noKey _ => .error (.text .malformed)
  | .member none _ _ => .error (.text .malformed)
  | .member (some key) value rest => do
    let item ← value.tree room
    let members ← rest.trees room
    return (key, item) :: members

end

def Items.count : Items → Nat
  | .close => 0
  | .cut _ => 0
  | .item _ rest => rest.count + 1

/-- No item may be left after the `wanted` ones that were read. -/
def Items.finish (source : Source) (wanted : Nat) : Items → Except Fault Unit
  | .close => .ok ()
  | .cut b => .error (.text b)
  | .item _ rest => .error (source.surplus wanted (wanted + 1 + rest.count))

end PatchPanel.Json
