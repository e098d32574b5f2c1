import PatchPanel.Json.Fault
import PatchPanel.Json.Text
import PatchPanel.Index
import PatchPanel.SwitchMap

/-!
A codec reads values of a type from outlines and writes them as data trees. This file has the
codecs of numbers, flags, strings, optional values, lists, pairs, named values and names out of a
fixed choice.
-/
namespace PatchPanel.Json

/-- How values of a type are read and written. -/
structure Codec (α : Type) where
  read : Source → Outline → Except Fault α
  write : α → Json

namespace Codec

variable {α β : Type}

/-- The codec of a type whose values stand for those of another one. -/
def convert (codec : Codec α) (make : α → β) (parts : β → α) : Codec β where
  read source o := (codec.read source o).map make
  write value := codec.write (parts value)

/-- Read an unsigned integer below `bound`. -/
def readBelow (bound : Nat) (expected : String) (o : Outline) : Except Fault Nat :=
  match o with
  | .number (.natural n) =>
    if n.toNat < bound then .ok n.toNat
    else .error (.data (.outOfRange (.number (.natural n)) expected))
  | .number (.negSucc n) => .error (.data (.outOfRange (.number (.negSucc n)) expected))
  | o => .error (o.unexpected expected)

def word16 : Codec UInt16 where
  read _ o := (readBelow UInt16.size "u16" o).map UInt16.ofNat
  write n := .number (.natural n.toUInt64)

def word32 : Codec UInt32 where
  read _ o := (readBelow UInt32.size "u32" o).map UInt32.ofNat
  write n := .number (.natural n.toUInt64)

def word64 : Codec UInt64 where
  read _ o := (readBelow UInt64.size "u64" o).map UInt64.ofNat
  write n := .number (.natural n)

def flag : Codec Bool where
  read _
    | .bool b => .ok b
    | o => .error (o.unexpected "a boolean")
  write b := .bool b

def string : Codec String where
  read _
    | .string s => .ok s
    | o => .error (o.unexpected "a string")
  write s := .string s

/-- Values that may be null. -/
def optional (codec : Codec α) : Codec (Option α) where
  read source
    | .null => .ok none
    | o => (codec.read source o).map some
  write
    | none => .null
    | some value => codec.write value

def readItems (read : Outline → Except Fault α) : Items → Except Fault (List α)
  | .close => .ok []
  | .cut b => .error (.text b)
  | .item first rest => do
    let value ← read first
    let values ← readItems read rest
    return value :: values

def list (codec : Codec α) : Codec (List α) where
  read source
    | .array items => readItems (codec.read source) items
    | o => .error (o.unexpected "a sequence")
  write values := .array (values.map codec.write)

def pair (first : Codec α) (second : Codec β) : Codec (α × β) where
  read source
    | .array .close => .error (.data (.wrongLength 0 "a tuple of size 2"))
    | .array (.cut b) => .error (.text b)
    | .array (.item a rest) => do
      let a ← first.read source a
      match rest with
      | .close => .error (.data (.wrongLength 1 "a tuple of size 2"))
      | .cut b => .error (.text b)
      | .item b rest => do
        let b ← second.read source b
        rest.finish source 2
        return (a, b)
    | o => .error (o.unexpected "a tuple of size 2")
  write value := .array [first.write value.1, second.write value.2]

/-- Read every member of an object and put it into a collection with `put`. -/
def readMembers (read : Outline → Except Fault α) (put : β → String → α → β) (collected : β) :
    Members → Except Fault β
  | .close => .ok collected
  | .cut reading _ => .error (.text reading)
  | .noKey _ => .error (.text .malformed)
  | .member none _ _ => .error (.text .malformed)
  | .member (some key) value rest => do
    let a ← read value
    readMembers read put (put collected key a) rest

def index (codec : Codec α) : Codec (Index α) where
  read source
    | .object members => readMembers (codec.read source) Index.put .empty members
    | o => .error (o.unexpected "a map")
  write values := .object (values.entries.map fun e => (e.1, codec.write e.2))

/-- Lists of switches, in the order of their names. -/
def switchMap (codec : Codec α) : Codec (SwitchMap α) where
  read source
    | .object members => readMembers (codec.list.read source) SwitchMap.put .empty members
    | o => .error (o.unexpected "a map")
  write values := .object (values.entries.map fun e => (e.1, codec.list.write e.2))

/-- The deepest nesting of lists and objects that is read into a data tree, in a whole text. -/
def maxDepth : Nat := 127

/-- Data of any form, with sorted members, inside `depth` lists and objects. -/
def data (depth : Nat) : Codec Json where
  read _ o := (o.tree (maxDepth - depth)).map Json.sorted
  write := id

def choose (choices : List (String × α)) (name : String) : Except Fault α :=
  match choices.find? (fun c => c.1 = name) with
  | some c => .ok c.2
  | none => .error (.data (.unknownVariant name (choices.map Prod.fst)))

def readName : Outline → Except Fault String
  | .string s => .ok s
  | o => .error (o.unexpected "variant identifier")

/-- Read one out of a fixed choice of names, given as a string or as an object that has null under
the name. Nothing else begins a choice in a text. -/
def readChoice (choices : List (String × α)) : Outline → Except Fault α
  | .string s => choose choices s
  | .object members =>
    match members with
    | .close => .error (.text .malformed)
    | .cut reading _ => .error (.text reading)
    | .noKey found => (readName found).bind (choose choices)
    | .member none _ _ => .error (.text .malformed)
    | .member (some key) value rest => do
      let a ← choose choices key
      match value with
      | .null => .ok ()
      | o => .error (o.unexpected "unit")
      match rest with
      | .close => .ok a
      | .cut reading _ => .error (.text reading)
      | _ => .error (.text .malformed)
  | .flawed flaw => .error (.text flaw.naming)
  | _ => .error (.text .malformed)

def choice (choices : List (String × α)) (name : α → String) : Codec α where
  read _ o := readChoice choices o
  write a := .string (name a)

end Codec

/-- Read a whole text with a codec. Anything behind the value is a fault. -/
def decode {α : Type} (codec : Codec α) (text : List Char) : Except Fault α :=
  let o := outline text
  match codec.read .text o.root with
  | .ok value => if o.trailing then .error (.text .malformed) else .ok value
  | .error fault => .error fault

def Codec.ofTree {α : Type} (codec : Codec α) (tree : Json) : Except Fault α :=
  codec.read .tree tree.toOutline

def encode {α : Type} (codec : Codec α) (value : α) : List Char := (codec.write value).compact

end PatchPanel.Json
