import PatchPanel.Json.Record
import PatchPanel.Proofs.Json.Spelling

/-!
Reading what was written. The outline of a text that denotes the tokens of a tree is that of the tree
(`outline_of_denotes`), and a record that is read from the members that it was written as is the same
record (`Codec.restores_record`).
-/
namespace PatchPanel.Json

/-! ### Outlines of spelled trees -/

private theorem firstItem_eq (item : Json) (frames : List Frame) (ts : List Token) :
    outlineFrom (.firstItem frames) (tokensOf item ++ ts) =
      outlineFrom (.value (.array [] :: frames)) (tokensOf item ++ ts) := by
  cases item with
  | array items => cases items <;> rfl
  | object members => cases members <;> rfl
  | _ => rfl

mutual

/-- The tokens of a tree where a value is due complete the outline of the tree. -/
theorem outlineFrom_tokensOf : ∀ (j : Json) (frames : List Frame) (ts : List Token),
    outlineFrom (.value frames) (tokensOf j ++ ts) = outlineFrom (complete j.toOutline frames) ts
  | .null, _, _ | .bool _, _, _ | .number _, _, _ | .string _, _, _ => rfl
  | .array [], _, _ => by simp [tokensOf, outlineFrom, Due.step, beginValue, toOutline, toItems]
  | .array (item :: items), frames, ts => by
    have opened : outlineFrom (.value frames) (tokensOf (.array (item :: items)) ++ ts) =
        outlineFrom (.firstItem frames) (tokensOf item ++ (tokensOfItems items ++ ts)) := by
      simp [tokensOf, outlineFrom, Due.step, beginValue]
    rw [opened, firstItem_eq, outlineFrom_tokensOf item, complete, outlineFrom_tokensOfItems items]
    rfl
  | .object [], _, _ => by simp [tokensOf, outlineFrom, Due.step, beginValue, toOutline, toMembers]
  | .object ((key, value) :: members), frames, ts => by
    have opened : outlineFrom (.value frames) (tokensOf (.object ((key, value) :: members)) ++ ts) =
        outlineFrom (.value (.object [] (some key) :: frames)) (tokensOf value ++ (tokensOfMembers members ++ ts)) := by
      simp [tokensOf, outlineFrom, Due.step, beginValue, beginKey, Lexeme.key]
    rw [opened, outlineFrom_tokensOf value, complete, outlineFrom_tokensOfMembers members]
    rfl

theorem outlineFrom_tokensOfItems :
    ∀ (items : List Json) (reversed : List Outline) (frames : List Frame) (ts : List Token),
    outlineFrom (.afterItem reversed frames) (tokensOfItems items ++ ts) =
      outlineFrom (complete (.array (.prepend reversed (toItems items))) frames) ts
  | [], _, _, _ => rfl
  | item :: items, reversed, frames, ts => by
    have goesOn : outlineFrom (.afterItem reversed frames) (tokensOfItems (item :: items) ++ ts) =
        outlineFrom (.value (.array reversed :: frames)) (tokensOf item ++ (tokensOfItems items ++ ts)) := by
      simp [tokensOfItems, outlineFrom, Due.step]
    rw [goesOn, outlineFrom_tokensOf item, complete, outlineFrom_tokensOfItems items]
    rfl

theorem outlineFrom_tokensOfMembers : ∀ (members : List (String × Json)) (reversed : List (Option String × Outline))
    (frames : List Frame) (ts : List Token),
    outlineFrom (.afterMember reversed frames) (tokensOfMembers members ++ ts) =
      outlineFrom (complete (.object (.prepend reversed (toMembers members))) frames) ts
  | [], _, _, _ => rfl
  | (key, value) :: members, reversed, frames, ts => by
    have goesOn : outlineFrom (.afterMember reversed frames) (tokensOfMembers ((key, value) :: members) ++ ts) =
        outlineFrom (.value (.object reversed (some key) :: frames))
          (tokensOf value ++ (tokensOfMembers members ++ ts)) := by
      simp [tokensOfMembers, outlineFrom, Due.step, beginKey, Lexeme.key]
    rw [goesOn, outlineFrom_tokensOf value, complete, outlineFrom_tokensOfMembers members]
    rfl

end

/-- The outline of a text that denotes a tree is that of the tree. -/
theorem outline_of_denotes {j : Json} {text : List Char} (denotes : Denotes (tokensOf j) text) :
    outline text = ⟨j.toOutline, false⟩ := by
  have whole := outlineFrom_tokensOf j [] []
  rw [List.append_nil] at whole
  rw [outline, (tokens_of_denotes denotes).1, whole]
  rfl

/-! ### Values that are read as they were written -/

/-- The value is read back from the tree that it is written as, which has no number but integers. -/
structure Codec.Restores {α : Type} (codec : Codec α) (value : α) : Prop where
  read : ∀ source, codec.read source (codec.write value).toOutline = .ok value
  integers : HasIntegers (codec.write value)

/-- A value that is written into a text is read from that text. -/
theorem Codec.Restores.decode {α : Type} {codec : Codec α} {value : α} (restores : codec.Restores value)
    {text : List Char} (spelled : Spells (tokensOf (codec.write value)) text) : Json.decode codec text = .ok value := by
  simp [Json.decode, outline_of_denotes spelled.denotes, restores.read]

namespace Codec
variable {α β : Type}

theorem restores_word16 (n : UInt16) : word16.Restores n := by
  refine ⟨fun source => ?_, trivial⟩
  have small : n.toNat < 65536 := n.toNat_lt
  simp [word16, toOutline, readBelow, Except.map, small]

theorem restores_word32 (n : UInt32) : word32.Restores n := by
  refine ⟨fun source => ?_, trivial⟩
  have small : n.toNat < 4294967296 := n.toNat_lt
  simp [word32, toOutline, readBelow, Except.map, small]

theorem restores_word64 (n : UInt64) : word64.Restores n := by
  refine ⟨fun source => ?_, trivial⟩
  have small : n.toNat < 18446744073709551616 := n.toNat_lt
  simp [word64, toOutline, readBelow, Except.map, small]

theorem restores_flag (b : Bool) : flag.Restores b := ⟨fun _ => rfl, trivial⟩

theorem restores_string (s : String) : string.Restores s := ⟨fun _ => rfl, trivial⟩

theorem restores_list {codec : Codec α} {values : List α} (each : ∀ value ∈ values, codec.Restores value) :
    codec.list.Restores values := by
  induction values with
  | nil => exact ⟨fun _ => rfl, trivial⟩
  | cons value values ih =>
    obtain ⟨first, others⟩ := List.forall_mem_cons.mp each
    have rest := ih others
    refine ⟨fun source => ?_, first.integers, rest.integers⟩
    have items : readItems (codec.read source) (toItems (values.map codec.write)) = .ok values := rest.read source
    simp only [list, List.map_cons, toOutline, toItems, readItems]
    rw [first.read source, items]
    rfl

/-- An optional value is told from no value by not being written as null. -/
theorem restores_optional_some {codec : Codec α} {value : α} (restores : codec.Restores value)
    (notNull : codec.write value ≠ .null) : codec.optional.Restores (some value) := by
  refine ⟨fun source => ?_, restores.integers⟩
  have read := restores.read source
  simp only [optional]
  cases written : codec.write value with
  | null => exact absurd written notNull
  | _ => simp only [written, toOutline] at read ⊢; rw [read]; rfl

end Codec

/-! ### Records -/

/-- A field restores a value: it reads the value that it wrote, or has it as the value for absence if
    it did not write it. -/
def Field.Restores {α : Type} (field : Field α) (value : α) : Prop :=
  if field.hidden value then field.absent = some value else field.codec.Restores value

namespace Field
variable {α : Type}

theorem restores_required {name : String} {codec : Codec α} {value : α} (restores : codec.Restores value) :
    (required name codec).Restores value := restores

theorem restores_optional {name : String} {codec : Codec α} {value : Option α}
    (restores : ∀ v, value = some v → codec.Restores v) (notNull : ∀ v, codec.write v ≠ .null) :
    (optional name codec).Restores value := by
  cases value with
  | none => rfl
  | some v => exact Codec.restores_optional_some (restores v rfl) (notNull v)

theorem restores_switch (name : String) (value : Bool) : (switch name).Restores value := by
  cases value with
  | false => rfl
  | true => exact Codec.restores_flag true

end Field

namespace Fields

/-- Every field restores its value in a row. -/
def Restores : {types : List Type} → Fields types → Row types → Prop
  | _, .nil, () => True
  | _, .cons field rest, (value, row) => field.Restores value ∧ rest.Restores row

/-- The slots of a record that was read from its written members. -/
def filled : {types : List Type} → Fields types → Row types → Slots types
  | _, .nil, () => ()
  | _, .cons field rest, (value, row) => (if field.hidden value then none else some value, rest.filled row)

theorem names_write {types : List Type} (fields : Fields types) (row : Row types) :
    ∀ name ∈ (fields.write row).map Prod.fst, name ∈ fields.names := by
  induction fields with
  | nil =>
    intro name member
    cases member
  | cons field rest ih =>
    obtain ⟨value, row⟩ := row
    intro name member
    simp only [write] at member
    split at member
    · exact List.mem_cons_of_mem _ (ih row name member)
    · rcases List.mem_cons.mp member with here | later
      · exact here ▸ List.mem_cons_self
      · exact List.mem_cons_of_mem _ (ih row name later)

/-- Members of other fields pass a field by. -/
private theorem readMembers_of_absent {α : Type} {types : List Type} {field : Field α} {rest : Fields types}
    {strict : Bool} {source : Source} {members : List (String × Json)} (absent : field.name ∉ members.map Prod.fst)
    (slot : Option α) {slots result : Slots types}
    (read : rest.readMembers strict source slots (toMembers members) = .ok result) :
    (Fields.cons field rest).readMembers strict source (slot, slots) (toMembers members) = .ok (slot, result) := by
  induction members generalizing slots with
  | nil =>
    cases read
    rfl
  | cons m members ih =>
    obtain ⟨key, value⟩ := m
    rw [List.map_cons, List.mem_cons, not_or] at absent
    simp only [toMembers, readMembers] at read ⊢
    -- The name is not that of the field in front, so what happens is what the other fields say.
    have passed : (Fields.cons field rest).offer source key value.toOutline (slot, slots) =
        (rest.offer source key value.toOutline slots).map fun r => r.map fun slots => (slot, slots) := if_neg absent.1
    rw [passed]
    cases offered : rest.offer source key value.toOutline slots with
    | none =>
      rw [offered] at read
      cases strict with
      | true => cases read
      | false =>
        cases skipped : value.toOutline.skip with
        | error fault => simp [skipped] at read
        | ok _ =>
          simp only [skipped, Bool.false_eq_true, ↓reduceIte, Option.map_none] at read ⊢
          exact ih absent.2 read
    | some outcome =>
      rw [offered] at read
      cases outcome with
      | error fault => cases read
      | ok next => exact ih absent.2 read

/-- The written members of a row fill the slots of a record with the row. -/
theorem readMembers_write {types : List Type} {fields : Fields types} {row : Row types} (distinct : fields.names.Nodup)
    (restores : fields.Restores row) (strict : Bool) (source : Source) :
    fields.readMembers strict source fields.blank (toMembers (fields.write row)) = .ok (fields.filled row) := by
  induction fields with
  | nil => rfl
  | cons field rest ih =>
    obtain ⟨value, row⟩ := row
    obtain ⟨first, others⟩ := restores
    rw [names, List.nodup_cons] at distinct
    have later := ih distinct.2 others
    have absent : field.name ∉ (rest.write row).map Prod.fst := fun member =>
      distinct.1 (rest.names_write row field.name member)
    -- Either way the field has no further member, so the rest of the members pass it by.
    simp only [write, filled, blank]
    by_cases hides : field.hidden value = true
    · rw [if_pos hides, if_pos hides]
      exact readMembers_of_absent absent none later
    · rw [Field.Restores, if_neg hides] at first
      rw [if_neg hides, if_neg hides]
      simp only [toMembers, readMembers]
      have taken :
          (Fields.cons field rest).offer source field.name (field.codec.write value).toOutline (none, rest.blank) =
          some ((field.codec.read source (field.codec.write value).toOutline).map fun a => (some a, rest.blank)) :=
        if_pos rfl
      rw [taken, first.read source]
      exact readMembers_of_absent absent (some value) later

theorem close_filled {types : List Type} {fields : Fields types} {row : Row types} (restores : fields.Restores row) :
    fields.close (fields.filled row) = .ok row := by
  induction fields with
  | nil => rfl
  | cons field rest ih =>
    obtain ⟨value, row⟩ := row
    obtain ⟨first, others⟩ := restores
    simp only [filled, close]
    rw [ih others]
    by_cases hides : field.hidden value = true
    · rw [Field.Restores, if_pos hides] at first
      simp [hides, first, Except.map]
    · simp [hides, Except.map]

/-- A record is read from the members that it was written as. -/
theorem read_write {types : List Type} {fields : Fields types} {row : Row types} (distinct : fields.names.Nodup)
    (restores : fields.Restores row) (label : String) (strict : Bool) (source : Source) :
    fields.read label strict source (Json.object (fields.write row)).toOutline = .ok row := by
  simp only [toOutline, read]
  rw [readMembers_write distinct restores]
  exact close_filled restores

theorem integers_write {types : List Type} {fields : Fields types} {row : Row types} (restores : fields.Restores row) :
    MembersHaveIntegers (fields.write row) := by
  induction fields with
  | nil => trivial
  | cons field rest ih =>
    obtain ⟨value, row⟩ := row
    obtain ⟨first, others⟩ := restores
    simp only [write]
    by_cases hides : field.hidden value = true
    · rw [if_pos hides]
      exact ih others
    · rw [Field.Restores, if_neg hides] at first
      rw [if_neg hides]
      exact ⟨first.integers, ih others⟩

end Fields

/-- A record with distinct field names restores every value whose fields do. -/
theorem Codec.restores_record {α : Type} {types : List Type} {label : String} {strict : Bool} {fields : Fields types}
    {make : Row types → α} {row : α → Row types} {value : α} (distinct : fields.names.Nodup)
    (same : make (row value) = value) (restores : fields.Restores (row value)) :
    (Codec.record label strict fields make row).Restores value := by
  refine ⟨fun source => ?_, Fields.integers_write restores⟩
  simp only [Codec.record, Fields.read_write distinct restores, Except.map, same]

end PatchPanel.Json
