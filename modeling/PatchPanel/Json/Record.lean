import PatchPanel.Json.Codec

/-!
Records: objects with fixed fields. A record may also be given as the list of its fields' values.
Fields are read in the order of the text and checked for presence in the order of the record.
-/
namespace PatchPanel.Json

/-- A field of a record. `absent` is its value when an object does not have it, and `unlisted` its
value when a list ends before it; without one, the field has to be there. A `hidden` value is left
out of the written object. -/
structure Field (α : Type) where
  name : String
  codec : Codec α
  absent : Option α
  unlisted : Option α
  hidden : α → Bool

namespace Field

variable {α : Type}

/-- A field that every record has. -/
def required (name : String) (codec : Codec α) : Field α :=
  ⟨name, codec, none, none, fun _ => false⟩

/-- A field that may be missing or null and is left out when it has no value. -/
def optional (name : String) (codec : Codec α) : Field (Option α) :=
  ⟨name, codec.optional, some none, some none, Option.isNone⟩

/-- A field that may be missing or null in an object, but not at the end of a list, and is left out
when it has no value. -/
def optionalMember (name : String) (codec : Codec α) : Field (Option α) :=
  ⟨name, codec.optional, some none, none, Option.isNone⟩

/-- A field that may be missing or null and is written as null when it has no value. -/
def nullable (name : String) (codec : Codec α) : Field (Option α) :=
  ⟨name, codec.optional, some none, some none, fun _ => false⟩

/-- A flag that is off when it is missing and is left out when it is off. -/
def switch (name : String) : Field Bool :=
  ⟨name, Codec.flag, some false, some false, (!·)⟩

end Field

/-- The values of a row of types. -/
def Row : List Type → Type
  | [] => Unit
  | α :: types => α × Row types

/-- The values read so far of a row of types. -/
def Slots : List Type → Type
  | [] => Unit
  | α :: types => Option α × Slots types

/-- The fields of a record, in order. -/
inductive Fields : List Type → Type 1 where
  | nil : Fields []
  | cons {α : Type} {types : List Type} (field : Field α) (rest : Fields types) :
    Fields (α :: types)

namespace Fields

def names : {types : List Type} → Fields types → List String
  | _, .nil => []
  | _, .cons field rest => field.name :: rest.names

/-- The slots of a record of which nothing was read. -/
def blank : {types : List Type} → Fields types → Slots types
  | _, .nil => ()
  | _, .cons _ rest => (none, rest.blank)

/-- Read a member into the slot of its field; none if no field has the name. -/
def offer (source : Source) (name : String) (value : Outline) :
    {types : List Type} → Fields types → Slots types → Option (Except Fault (Slots types))
  | _, .nil, _ => none
  | _, .cons field rest, (slot, slots) =>
    if field.name = name then
      match slot with
      | some _ => some (.error (.data (.duplicateField name)))
      | none => some ((field.codec.read source value).map fun a => (some a, slots))
    else (rest.offer source name value slots).map fun r => r.map fun slots => (slot, slots)

/-- Read the members of an object into slots. An unknown member is a fault of a `strict` record and
passed over in any other. -/
def readMembers {types : List Type} (fields : Fields types) (strict : Bool) (source : Source)
    (slots : Slots types) : Members → Except Fault (Slots types)
  | .close => .ok slots
  | .cut reading _ => .error (.text reading)
  | .noKey _ => .error (.text .malformed)
  | .member none _ _ => .error (.text .malformed)
  | .member (some name) value rest =>
    match fields.offer source name value slots with
    | some (.ok slots) => readMembers fields strict source slots rest
    | some (.error fault) => .error fault
    | none =>
      if strict then .error (.data (.unknownField name fields.names))
      else
        match value.skip with
        | .ok () => readMembers fields strict source slots rest
        | .error fault => .error fault

/-- The values of the fields of an object; a missing field takes its value for absence. -/
def close : {types : List Type} → Fields types → Slots types → Except Fault (Row types)
  | _, .nil, () => .ok ()
  | _, .cons field rest, (slot, slots) =>
    match slot.or field.absent with
    | some a => (rest.close slots).map fun row => (a, row)
    | none => .error (.data (.missingField field.name))

/-- The values of the fields given as a list, the first of them at `position`. -/
def readItems (source : Source) (expected : String) :
    {types : List Type} → Fields types → (position : Nat) → Items → Except Fault (Row types)
  | _, .nil, position, items => (items.finish source position).map fun () => ()
  | _, .cons field rest, position, items =>
    match items with
    | .item first others =>
      match field.codec.read source first with
      | .ok a => (rest.readItems source expected (position + 1) others).map fun row => (a, row)
      | .error fault => .error fault
    | .cut b => .error (.text b)
    | .close =>
      match field.unlisted with
      | some a => (rest.readItems source expected (position + 1) .close).map fun row => (a, row)
      | none => .error (.data (.wrongLength position expected))

def write : {types : List Type} → Fields types → Row types → List (String × Json)
  | _, .nil, () => []
  | _, .cons field rest, (a, row) =>
    if field.hidden a then rest.write row
    else (field.name, field.codec.write a) :: rest.write row

def size : {types : List Type} → Fields types → Nat
  | _, .nil => 0
  | _, .cons _ rest => rest.size + 1

/-- Read a record from an object or a list. -/
def read {types : List Type} (fields : Fields types) (label : String) (strict : Bool)
    (source : Source) : Outline → Except Fault (Row types)
  | .object members => (fields.readMembers strict source fields.blank members).bind fields.close
  | .array items => fields.readItems source (label ++ " with " ++ elements fields.size) 0 items
  | o => .error (o.unexpected label)

end Fields

/-- The codec of a record type with the given fields, whose values are rows of the fields' values.
A `strict` record takes no unknown members. -/
def Codec.record {α : Type} {types : List Type} (label : String) (strict : Bool)
    (fields : Fields types) (make : Row types → α) (row : α → Row types) : Codec α where
  read source o := (fields.read label strict source o).map make
  write value := .object (fields.write (row value))

end PatchPanel.Json
