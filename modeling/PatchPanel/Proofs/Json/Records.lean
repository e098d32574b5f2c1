import PatchPanel.Proofs.Json.Outlines
import PatchPanel.Proofs.Json.Restoring

/-!
Which objects a strict record is read from. Each key of the object has to be that of a field and stand there once
(`Fields.read_object_ok_iff`), in any order, and a text that is read is that of a tree (`Codec.Sound.decode_ok_iff`).
-/
namespace PatchPanel.Json

/-- Trees with one outline are one tree. -/
theorem toOutline_injective {i j : Json} (same : i.toOutline = j.toOutline) : i = j := by
  have first := tree_toOutline (Nat.le_max_left i.depth j.depth)
  have second := tree_toOutline (Nat.le_max_right i.depth j.depth)
  rw [same, second] at first
  exact (Except.ok.inj first).symm

/-- A text denotes no more than one tree. -/
theorem denotes_unique {i j : Json} {text : List Char} (first : Denotes (tokensOf i) text)
    (second : Denotes (tokensOf j) text) : i = j := by
  have same := (outline_eq_iff.mpr first).symm.trans (outline_eq_iff.mpr second)
  exact toOutline_injective (congrArg TextOutline.root same)

theorem tokens_of_brace {blanks : List Char} (blank : ∀ c ∈ blanks, isBlank c = true) (rest : List Char) :
    tokens (blanks ++ '\x7b' :: rest) = .openObject :: tokens rest := by
  unfold tokens
  induction blanks with
  | nil => rfl
  | cons c blanks ih =>
    rw [List.forall_mem_cons] at blank
    rw [List.cons_append, scan_blank blank.1, ih blank.2]

/-- A text that opens with a brace denotes nothing but objects. -/
theorem exists_members_of_denotes {j : Json} {blanks rest : List Char} (blank : ∀ c ∈ blanks, isBlank c = true)
    (denotes : Denotes (tokensOf j) (blanks ++ '\x7b' :: rest)) : ∃ members, j = .object members := by
  have opens := (tokens_of_denotes denotes).1.symm.trans (tokens_of_brace blank rest)
  cases j with
  | object members => exact ⟨members, rfl⟩
  | array items => cases items <;> cases opens
  | _ => cases opens

/-! ### Codecs that read nothing but what they write -/

namespace Codec
variable {α : Type} {codec : Codec α}

/-- Nothing is read but trees without a flaw. -/
def Sound (codec : Codec α) : Prop := ∀ source o a, codec.read source o = .ok a → ∃ j : Json, o = j.toOutline

/-- A value is read from what it is written as, and from nothing else. -/
def Exact (codec : Codec α) : Prop := ∀ source o a, codec.read source o = .ok a ↔ o = (codec.write a).toOutline

theorem Exact.sound (exact : codec.Exact) : codec.Sound :=
  fun source o a read => ⟨codec.write a, (exact source o a).mp read⟩

theorem Exact.read_toOutline (exact : codec.Exact) {source : Source} {j : Json} {a : α} :
    codec.read source j.toOutline = .ok a ↔ j = codec.write a := by
  rw [exact]
  exact ⟨toOutline_injective, congrArg toOutline⟩

theorem readBelow_ok_iff {bound : Nat} {expected : String} {o : Outline} {n : Nat} :
    readBelow bound expected o = .ok n ↔ ∃ m : UInt64, o = .number (.natural m) ∧ m.toNat = n ∧ n < bound := by
  unfold readBelow
  split
  · next m =>
    by_cases below : m.toNat < bound
    · rw [if_pos below]
      constructor
      · intro same
        cases same
        exact ⟨m, rfl, rfl, below⟩
      · rintro ⟨_, same, rfl, _⟩
        cases same
        rfl
    · rw [if_neg below]
      constructor
      · nofun
      · rintro ⟨_, same, rfl, small⟩
        cases same
        exact absurd small below
  · exact ⟨nofun, fun ⟨_, same, _⟩ => nomatch same⟩
  · next noNatural _ => exact ⟨nofun, fun ⟨m, same, _⟩ => absurd same (noNatural m)⟩

/-- An unsigned integer is read from what it is written as, where `wide` is its 64-bit form. -/
private theorem exact_unsigned {bound : Nat} {expected : String} (make : Nat → α) (wide : α → UInt64)
    (small : ∀ a, (wide a).toNat < bound) (make_toNat : ∀ a, make (wide a).toNat = a)
    (toNat_make : ∀ n, n < bound → (wide (make n)).toNat = n) (o : Outline) (a : α) :
    (readBelow bound expected o).map make = .ok a ↔ o = .number (.natural (wide a)) := by
  simp only [map_eq_ok_iff, readBelow_ok_iff]
  constructor
  · rintro ⟨_, ⟨m, rfl, rfl, below⟩, rfl⟩
    rw [UInt64.toNat_inj.mp (toNat_make m.toNat below)]
  · rintro rfl
    exact ⟨_, ⟨wide a, rfl, rfl, small a⟩, make_toNat a⟩

theorem exact_word16 : word16.Exact := fun _ =>
  exact_unsigned UInt16.ofNat UInt16.toUInt64 (fun a => a.toNat_lt) (fun a => by simp) fun _ below =>
    UInt16.toNat_ofNat_of_lt' below

theorem exact_word32 : word32.Exact := fun _ =>
  exact_unsigned UInt32.ofNat UInt32.toUInt64 (fun a => a.toNat_lt) (fun a => by simp) fun _ below =>
    UInt32.toNat_ofNat_of_lt' below

theorem exact_word64 : word64.Exact := fun _ =>
  exact_unsigned UInt64.ofNat id (fun a => a.toNat_lt) (fun a => by simp) fun _ below =>
    UInt64.toNat_ofNat_of_lt' below

theorem exact_flag : flag.Exact := by
  intro source o a
  cases o <;> simp [flag, toOutline]

theorem exact_string : string.Exact := by
  intro source o a
  cases o <;> simp [string, toOutline]

theorem Exact.readItems_ok_iff (exact : codec.Exact) (source : Source) : ∀ {items : Items} {values : List α},
    readItems (codec.read source) items = .ok values ↔ items = toItems (values.map codec.write)
  | .close, values => by cases values <;> simp [readItems, toItems]
  | .cut b, values => by cases values <;> simp [readItems, toItems]
  | .item first rest, values => by
    simp only [readItems, bind_eq_ok_iff, pure_eq_ok, Except.ok.injEq, exact source first,
      exact.readItems_ok_iff source]
    cases values <;> simp [toItems]

theorem Exact.list (exact : codec.Exact) : codec.list.Exact := by
  intro source o values
  cases o with
  | array items => simp [Codec.list, toOutline, exact.readItems_ok_iff source]
  | _ => simp [Codec.list, toOutline]

/-- An optional value is read from null or from what the value is written as, if no value is written as null. -/
theorem Exact.optional (exact : codec.Exact) (notNull : ∀ a, codec.write a ≠ .null) : codec.optional.Exact := by
  intro source o value
  cases value with
  | none => cases o <;> simp [Codec.optional, toOutline, map_eq_ok_iff]
  | some a =>
    have other : Outline.null ≠ (codec.write a).toOutline := fun same =>
      notNull a (toOutline_injective (i := .null) same).symm
    simp only [Codec.optional]
    split
    · simp [other]
    · simp [map_eq_ok_iff, exact source _ a]

end Codec

/-! ### Members of a strict record -/

/-- What becomes of the slot of a field when members are read: it stays as it is if none of them has the name of the
    field, and else it was empty and has the value of the member. -/
def Field.Fills {α : Type} (field : Field α) (source : Source) (members : List (String × Json))
    (slot result : Option α) : Prop :=
  field.name ∉ members.map Prod.fst ∧ result = slot ∨
    ∃ j a, (field.name, j) ∈ members ∧ slot = none ∧ field.codec.read source j.toOutline = .ok a ∧ result = some a

/-- The value that a field has in an object. -/
def Field.Takes {α : Type} (field : Field α) (source : Source) (members : List (String × Json)) (value : α) : Prop :=
  field.name ∉ members.map Prod.fst ∧ field.absent = some value ∨
    ∃ j, (field.name, j) ∈ members ∧ field.codec.read source j.toOutline = .ok value

namespace Fields

/-- What becomes of the slots of a record when members are read. -/
def Fills (source : Source) (members : List (String × Json)) :
    {types : List Type} → Fields types → Slots types → Slots types → Prop
  | _, .nil, (), () => True
  | _, .cons field rest, (slot, slots), (result, results) =>
    field.Fills source members slot result ∧ rest.Fills source members slots results

/-- The values that the fields of a record have in an object. -/
def Takes (source : Source) (members : List (String × Json)) : {types : List Type} → Fields types → Row types → Prop
  | _, .nil, () => True
  | _, .cons field rest, (value, row) => field.Takes source members value ∧ rest.Takes source members row

end Fields

section
variable {source : Source} {members : List (String × Json)} {key : String} {j : Json}

namespace Field
variable {α : Type} {field : Field α} {slot result : Option α}

theorem fills_other (other : field.name ≠ key) :
    field.Fills source ((key, j) :: members) slot result ↔ field.Fills source members slot result := by
  simp [Fills, other]

/-- The member of a field is read into its slot if the slot is empty. -/
theorem fills_own (single : field.name ∉ members.map Prod.fst) :
    field.Fills source ((field.name, j) :: members) slot result ↔
      slot = none ∧ ∃ a, field.codec.read source j.toOutline = .ok a ∧ result = some a := by
  have elsewhere : ∀ i, (field.name, i) ∉ members := fun i member => single (List.mem_map_of_mem member)
  simp [Fills, elsewhere]

/-- A slot with a value in it has to stay as it is. -/
theorem fills_some {a : α} :
    field.Fills source members (some a) result ↔ field.name ∉ members.map Prod.fst ∧ result = some a := by
  simp [Fills]

theorem takes_iff {value : α} : field.Takes source members value ↔
    ∃ result, field.Fills source members none result ∧ result.or field.absent = some value := by
  constructor
  · rintro (⟨missing, absent⟩ | ⟨j, member, read⟩)
    · exact ⟨none, .inl ⟨missing, rfl⟩, absent⟩
    · exact ⟨some value, .inr ⟨j, value, member, rfl, read, rfl⟩, rfl⟩
  · rintro ⟨_, ⟨missing, rfl⟩ | ⟨j, a, member, _, read, rfl⟩, same⟩
    · exact .inl ⟨missing, same⟩
    · cases same
      exact .inr ⟨j, member, read⟩

end Field

namespace Fields
variable {types : List Type} {fields : Fields types} {slots results : Slots types}

theorem fills_nil : fields.Fills source [] slots results ↔ results = slots := by
  induction fields with
  | nil => exact ⟨fun _ => rfl, fun _ => trivial⟩
  | cons field rest ih =>
    obtain ⟨slot, slots⟩ := slots
    obtain ⟨result, results⟩ := results
    simp only [Fills, Field.Fills, ih]
    constructor
    · rintro ⟨⟨_, rfl⟩ | ⟨_, _, member, _⟩, rfl⟩
      · rfl
      · cases member
    · intro same
      cases same
      exact ⟨.inl ⟨List.not_mem_nil, rfl⟩, rfl⟩

theorem fills_other (other : key ∉ fields.names) :
    fields.Fills source ((key, j) :: members) slots results ↔ fields.Fills source members slots results := by
  induction fields with
  | nil => rfl
  | cons field rest ih =>
    obtain ⟨slot, slots⟩ := slots
    obtain ⟨result, results⟩ := results
    rw [names, List.mem_cons, not_or] at other
    simp only [Fills, Field.fills_other (Ne.symm other.1), ih other.2]

/-- A member is taken up if its key is that of a field and none of the members behind it has the same key. -/
theorem fills_cons_iff (distinct : fields.names.Nodup) :
    (∃ next, fields.offer source key j.toOutline slots = some (.ok next) ∧ fields.Fills source members next results) ↔
      key ∈ fields.names ∧ key ∉ members.map Prod.fst ∧ fields.Fills source ((key, j) :: members) slots results := by
  induction fields with
  | nil => simp [offer, names]
  | cons field rest ih =>
    obtain ⟨slot, slots⟩ := slots
    obtain ⟨result, results⟩ := results
    obtain ⟨single, distinct⟩ := List.nodup_cons.mp distinct
    by_cases own : field.name = key
    · subst own
      have known : field.name ∈ (Fields.cons field rest).names := List.mem_cons_self
      cases slot with
      | some a =>
        have refused : (Fields.cons field rest).offer source field.name j.toOutline (some a, slots) =
            some (.error (.data (.duplicateField field.name))) := if_pos rfl
        rw [refused]
        constructor
        · rintro ⟨_, offered, _⟩
          cases offered
        · rintro ⟨_, fresh, first, _⟩
          cases ((Field.fills_own fresh).mp first).1
      | none =>
        have taken : (Fields.cons field rest).offer source field.name j.toOutline (none, slots) =
            some ((field.codec.read source j.toOutline).map fun a => (some a, slots)) := if_pos rfl
        rw [taken]
        constructor
        · rintro ⟨⟨next, nexts⟩, offered, first, others⟩
          obtain ⟨a, read, same⟩ := map_eq_ok_iff.mp (Option.some.inj offered)
          cases same
          obtain ⟨fresh, rfl⟩ := Field.fills_some.mp first
          exact ⟨known, fresh, (Field.fills_own fresh).mpr ⟨rfl, a, read, rfl⟩, (fills_other single).mpr others⟩
        · rintro ⟨_, fresh, first, others⟩
          obtain ⟨_, a, read, rfl⟩ := (Field.fills_own fresh).mp first
          refine ⟨(some a, slots), ?_, Field.fills_some.mpr ⟨fresh, rfl⟩, (fills_other single).mp others⟩
          rw [read]
          rfl
    · have passed : (Fields.cons field rest).offer source key j.toOutline (slot, slots) =
          (rest.offer source key j.toOutline slots).map fun r => r.map fun slots => (slot, slots) := if_neg own
      have isKnown : key ∈ (Fields.cons field rest).names ↔ key ∈ rest.names := by simp [names, Ne.symm own]
      rw [passed, isKnown]
      constructor
      · rintro ⟨⟨next, nexts⟩, offered, first, others⟩
        obtain ⟨outcome, offered, same⟩ := Option.map_eq_some_iff.mp offered
        obtain ⟨_, rfl, same⟩ := map_eq_ok_iff.mp same
        cases same
        obtain ⟨known, fresh, others⟩ := (ih distinct).mp ⟨nexts, offered, others⟩
        exact ⟨known, fresh, (Field.fills_other own).mpr first, others⟩
      · rintro ⟨known, fresh, first, others⟩
        obtain ⟨nexts, offered, others⟩ := (ih distinct).mpr ⟨known, fresh, others⟩
        refine ⟨(slot, nexts), ?_, (Field.fills_other own).mp first, others⟩
        rw [offered]
        rfl

/-- The members of a strict record have distinct keys, all of them those of fields. -/
theorem readMembers_ok_iff (distinct : fields.names.Nodup) :
    fields.readMembers true source slots (toMembers members) = .ok results ↔
      (members.map Prod.fst).Nodup ∧ (∀ key ∈ members.map Prod.fst, key ∈ fields.names) ∧
        fields.Fills source members slots results := by
  induction members generalizing slots with
  | nil => simp [toMembers, readMembers, fills_nil, eq_comm]
  | cons m members ih =>
    obtain ⟨key, j⟩ := m
    have step : fields.readMembers true source slots (toMembers ((key, j) :: members)) = .ok results ↔
        ∃ next, fields.offer source key j.toOutline slots = some (.ok next) ∧
          fields.readMembers true source next (toMembers members) = .ok results := by
      simp only [toMembers, readMembers]
      cases fields.offer source key j.toOutline slots with
      | none => simp
      | some outcome => cases outcome <;> simp
    rw [step, List.map_cons, List.nodup_cons, List.forall_mem_cons]
    constructor
    · rintro ⟨next, offered, read⟩
      obtain ⟨once, known, fills⟩ := ih.mp read
      obtain ⟨isKnown, fresh, fills⟩ := (fills_cons_iff distinct).mp ⟨next, offered, fills⟩
      exact ⟨⟨fresh, once⟩, ⟨isKnown, known⟩, fills⟩
    · rintro ⟨⟨fresh, once⟩, ⟨isKnown, known⟩, fills⟩
      obtain ⟨next, offered, fills⟩ := (fills_cons_iff distinct).mpr ⟨isKnown, fresh, fills⟩
      exact ⟨next, offered, ih.mpr ⟨once, known, fills⟩⟩

theorem close_cons_iff {α : Type} {field : Field α} {slot : Option α} {value : α} {row : Row types} :
    (Fields.cons field fields).close (slot, slots) = .ok (value, row) ↔
      slot.or field.absent = some value ∧ fields.close slots = .ok row := by
  rw [close]
  cases slot.or field.absent with
  | none =>
    constructor
    · rintro ⟨⟩
    · rintro ⟨⟨⟩, _⟩
  | some a =>
    constructor
    · intro made
      obtain ⟨_, closed, same⟩ := map_eq_ok_iff.mp made
      cases same
      exact ⟨rfl, closed⟩
    · rintro ⟨same, closed⟩
      cases same
      exact map_eq_ok_iff.mpr ⟨row, closed, rfl⟩

/-- The slots that the members fill have the values that the fields take. -/
theorem close_fills_iff {row : Row types} :
    (∃ results, fields.Fills source members fields.blank results ∧ fields.close results = .ok row) ↔
      fields.Takes source members row := by
  induction fields with
  | nil => exact ⟨fun _ => trivial, fun _ => ⟨(), trivial, rfl⟩⟩
  | cons field rest ih =>
    obtain ⟨value, row⟩ := row
    rw [Takes, ← ih, Field.takes_iff]
    constructor
    · rintro ⟨⟨result, results⟩, ⟨first, others⟩, closed⟩
      obtain ⟨same, closed⟩ := close_cons_iff.mp closed
      exact ⟨⟨result, first, same⟩, results, others, closed⟩
    · rintro ⟨⟨result, first, same⟩, results, others, closed⟩
      exact ⟨(result, results), ⟨first, others⟩, close_cons_iff.mpr ⟨same, closed⟩⟩

/-- A strict record is read from an object if every key of the object is that of a field and stands there once, and
    every field takes its value from it. -/
theorem read_object_ok_iff (distinct : fields.names.Nodup) {label : String} {row : Row types} :
    fields.read label true source (Json.object members).toOutline = .ok row ↔
      (members.map Prod.fst).Nodup ∧ (∀ key ∈ members.map Prod.fst, key ∈ fields.names) ∧
        fields.Takes source members row := by
  have read : fields.read label true source (Json.object members).toOutline =
      fields.readMembers true source fields.blank (toMembers members) >>= fields.close := rfl
  simp only [read, bind_eq_ok_iff, readMembers_ok_iff distinct, ← close_fills_iff]
  constructor
  · rintro ⟨results, ⟨once, known, fills⟩, closed⟩
    exact ⟨once, known, results, fills, closed⟩
  · rintro ⟨once, known, results, fills, closed⟩
    exact ⟨results, ⟨once, known, fills⟩, closed⟩

/-! ### Texts of a strict record -/

/-- No field reads a value with a flaw. -/
def Sound : {types : List Type} → Fields types → Prop
  | _, .nil => True
  | _, .cons field rest => field.codec.Sound ∧ rest.Sound

theorem offer_sound (sound : fields.Sound) {o : Outline} {next : Slots types}
    (offered : fields.offer source key o slots = some (.ok next)) : ∃ j : Json, o = j.toOutline := by
  induction fields with
  | nil => cases offered
  | cons field rest ih =>
    obtain ⟨slot, slots⟩ := slots
    simp only [offer] at offered
    split at offered
    · cases slot with
      | some a => cases offered
      | none =>
        obtain ⟨a, read, _⟩ := map_eq_ok_iff.mp (Option.some.inj offered)
        exact sound.1 source o a read
    · obtain ⟨outcome, offered, same⟩ := Option.map_eq_some_iff.mp offered
      obtain ⟨_, rfl, _⟩ := map_eq_ok_iff.mp same
      exact ih sound.2 offered

theorem readMembers_sound (sound : fields.Sound) : ∀ {o : Members} {slots results : Slots types},
    fields.readMembers true source slots o = .ok results → ∃ members, o = toMembers members
  | .close, _, _, _ => ⟨[], rfl⟩
  | .member (some key) value rest, slots, results, read => by
    rw [readMembers] at read
    cases offered : fields.offer source key value slots with
    | none => simp [offered] at read
    | some outcome =>
      cases outcome with
      | error fault => simp [offered] at read
      | ok next =>
        rw [offered] at read
        obtain ⟨j, rfl⟩ := offer_sound sound offered
        obtain ⟨members, rfl⟩ := readMembers_sound sound read
        exact ⟨(key, j) :: members, rfl⟩

theorem readItems_sound (sound : fields.Sound) {expected : String} {position : Nat} {o : Items} {row : Row types}
    (read : fields.readItems source expected position o = .ok row) : ∃ items, o = toItems items := by
  induction fields generalizing position o with
  | nil =>
    obtain ⟨_, finished, _⟩ := map_eq_ok_iff.mp read
    cases o with
    | close => exact ⟨[], rfl⟩
    | _ => cases finished
  | cons field rest ih =>
    cases o with
    | close => exact ⟨[], rfl⟩
    | cut b => cases read
    | item first others =>
      rw [readItems] at read
      cases value : field.codec.read source first with
      | error fault => simp [value] at read
      | ok a =>
        rw [value] at read
        obtain ⟨_, read, _⟩ := map_eq_ok_iff.mp read
        obtain ⟨j, rfl⟩ := sound.1 source first a value
        obtain ⟨items, rfl⟩ := ih sound.2 read
        exact ⟨j :: items, rfl⟩

end Fields

end

/-! ### Members that may be missing -/

section
variable {α : Type} {members : List (String × Json)} {name : String} {source : Source} {codec : Codec α}

/-- What an object has under a name, where values have a form: no value if there is no member or null, and else the
    value that the member is the form of. -/
inductive Gives (members : List (String × Json)) (name : String) (form : α → Json) : Option α → Prop where
  | missing : name ∉ members.map Prod.fst → Gives members name form none
  | null : (name, .null) ∈ members → Gives members name form none
  | value {a : α} : (name, form a) ∈ members → Gives members name form (some a)

/-- The flag that an object has under a name, which is off if there is no member. -/
inductive GivesFlag (members : List (String × Json)) (name : String) : Bool → Prop where
  | missing : name ∉ members.map Prod.fst → GivesFlag members name false
  | flag {b : Bool} : (name, .bool b) ∈ members → GivesFlag members name b

theorem Field.takes_required (exact : codec.Exact) {value : α} :
    (Field.required name codec).Takes source members value ↔ (name, codec.write value) ∈ members := by
  simp [Field.Takes, Field.required, exact.read_toOutline]

theorem Field.takes_optional (exact : codec.Exact) (notNull : ∀ a, codec.write a ≠ .null) {value : Option α} :
    (Field.optional name codec).Takes source members value ↔ Gives members name codec.write value := by
  have read : ∀ j : Json, codec.optional.read source j.toOutline = .ok value ↔ j = codec.optional.write value :=
    fun j => (exact.optional notNull).read_toOutline
  simp only [Field.Takes, Field.optional, read, exists_eq_right]
  constructor
  · rintro (⟨missing, absent⟩ | member)
    · cases absent
      exact .missing missing
    · cases value with
      | none => exact .null member
      | some a => exact .value member
  · rintro (missing | member | member)
    · exact .inl ⟨missing, rfl⟩
    · exact .inr member
    · exact .inr member

theorem Field.takes_switch {value : Bool} :
    (Field.switch name).Takes source members value ↔ GivesFlag members name value := by
  simp only [Field.Takes, Field.switch, Codec.exact_flag.read_toOutline, exists_eq_right]
  constructor
  · rintro (⟨missing, absent⟩ | member)
    · cases absent
      exact .missing missing
    · exact .flag member
  · rintro (missing | member)
    · exact .inl ⟨missing, rfl⟩
    · exact .inr member

/-- The order of the members does not matter. -/
theorem Gives.perm {form : α → Json} {others : List (String × Json)} (same : members.Perm others) {value : Option α}
    (gives : Gives members name form value) : Gives others name form value := by
  cases gives with
  | missing missing => exact .missing fun member => missing ((same.map Prod.fst).mem_iff.mpr member)
  | null member => exact .null (same.mem_iff.mp member)
  | value member => exact .value (same.mem_iff.mp member)

theorem GivesFlag.perm {others : List (String × Json)} (same : members.Perm others) {value : Bool}
    (gives : GivesFlag members name value) : GivesFlag others name value := by
  cases gives with
  | missing missing => exact .missing fun member => missing ((same.map Prod.fst).mem_iff.mpr member)
  | flag member => exact .flag (same.mem_iff.mp member)

end

namespace Codec
variable {α : Type}

/-- A strict record reads no text with a flaw, not even in what it takes no value from. -/
theorem Sound.record {types : List Type} {label : String} {fields : Fields types} {make : Row types → α}
    {row : α → Row types} (sound : fields.Sound) : (Codec.record label true fields make row).Sound := by
  intro source o a read
  obtain ⟨values, read, _⟩ := map_eq_ok_iff.mp read
  cases o with
  | object members =>
    obtain ⟨slots, read, _⟩ := bind_eq_ok_iff.mp read
    obtain ⟨js, rfl⟩ := Fields.readMembers_sound sound read
    exact ⟨.object js, rfl⟩
  | array items =>
    obtain ⟨js, rfl⟩ := Fields.readItems_sound sound read
    exact ⟨.array js, rfl⟩
  | _ => cases read

/-- A value is read from a text if the text denotes a tree that the value is read from. -/
theorem Sound.decode_ok_iff {codec : Codec α} (sound : codec.Sound) {text : List Char} {a : α} :
    decode codec text = .ok a ↔ ∃ j, Denotes (tokensOf j) text ∧ codec.read .text j.toOutline = .ok a := by
  unfold decode
  constructor
  · intro decoded
    cases read : codec.read .text (outline text).root with
    | error fault => simp [read] at decoded
    | ok value =>
      cases trailing : (outline text).trailing with
      | true => simp [read, trailing] at decoded
      | false =>
        simp only [read, trailing, Bool.false_eq_true, ↓reduceIte, Except.ok.injEq] at decoded
        obtain ⟨j, root⟩ := sound _ _ _ read
        have whole : outline text = ⟨j.toOutline, false⟩ := by
          rw [← root, ← trailing]
        refine ⟨j, outline_eq_iff.mp whole, ?_⟩
        rw [← root, read, decoded]
  · rintro ⟨j, denotes, read⟩
    simp [outline_eq_iff.mpr denotes, read]

end Codec
end PatchPanel.Json
