import PatchPanel.Proofs.Index
import PatchPanel.Proofs.Json.Reading
import Mathlib.Data.List.Induction

/-!
More values that are read as they were written. Data of any form come back where their objects are sorted and they
are nested no deeper than the reader goes (`Codec.restores_data`), named values come back in their order
(`Codec.restores_index`), and so do pairs, choices and the fields that may be missing.
-/
namespace PatchPanel

/-! ### Data trees -/

namespace Json

mutual

/-- How many lists and objects are open at a time in a tree. -/
def depth : Json → Nat
  | .array items => depthItems items + 1
  | .object members => depthMembers members + 1
  | .null | .bool _ | .number _ | .string _ => 0

def depthItems : List Json → Nat
  | [] => 0
  | item :: items => max item.depth (depthItems items)

def depthMembers : List (String × Json) → Nat
  | [] => 0
  | (_, value) :: members => max value.depth (depthMembers members)

end

mutual

/-- The members of every object stand in the order of their keys, and no two have one key. -/
def IsSorted : Json → Prop
  | .array items => ItemsSorted items
  | .object members => Increasing members ∧ MembersSorted members
  | .null | .bool _ | .number _ | .string _ => True

def ItemsSorted : List Json → Prop
  | [] => True
  | item :: items => item.IsSorted ∧ ItemsSorted items

def MembersSorted : List (String × Json) → Prop
  | [] => True
  | (_, value) :: members => value.IsSorted ∧ MembersSorted members

end

mutual

/-- The outline of a tree is read into the tree where there is room for its nesting. -/
theorem tree_toOutline : ∀ {j : Json} {room : Nat}, j.depth ≤ room → j.toOutline.tree room = .ok j
  | .null, _, _ | .bool _, _, _ | .number _, _, _ | .string _, _, _ => rfl
  | .array items, 0, shallow => absurd shallow (by simp [depth])
  | .array items, room + 1, shallow => by
    have inside : (toItems items).trees room = .ok items := trees_toItems (by simp only [depth] at shallow; omega)
    simp only [toOutline, Outline.tree, inside]
    rfl
  | .object members, 0, shallow => absurd shallow (by simp [depth])
  | .object members, room + 1, shallow => by
    have inside : (toMembers members).trees room = .ok members :=
      trees_toMembers (by simp only [depth] at shallow; omega)
    simp only [toOutline, Outline.tree, inside]
    rfl

theorem trees_toItems : ∀ {items : List Json} {room : Nat}, depthItems items ≤ room →
    (toItems items).trees room = .ok items
  | [], _, _ => rfl
  | item :: items, room, shallow => by
    obtain ⟨first, others⟩ := Nat.max_le.mp shallow
    simp only [toItems, Items.trees, tree_toOutline first, trees_toItems others]
    rfl

theorem trees_toMembers : ∀ {members : List (String × Json)} {room : Nat}, depthMembers members ≤ room →
    (toMembers members).trees room = .ok members
  | [], _, _ => rfl
  | (key, value) :: members, room, shallow => by
    obtain ⟨first, others⟩ := Nat.max_le.mp shallow
    simp only [toMembers, Members.trees, tree_toOutline first, trees_toMembers others]
    rfl

end

/-- A key behind all others is inserted at the end. -/
theorem insertSorted_last {α : Type} {key : String} {value : α} {members : List (String × α)}
    (last : ∀ k ∈ members.map Prod.fst, k < key) : insertSorted key value members = members ++ [(key, value)] := by
  induction members with
  | nil => rfl
  | cons m members ih =>
    rw [List.map_cons, List.forall_mem_cons] at last
    obtain ⟨before, others⟩ := last
    have after : ¬ key < m.1 := fun less => String.lt_irrefl key (String.lt_trans less before)
    have other : key ≠ m.1 := fun same => String.lt_irrefl key (by rw [← same] at before; exact before)
    simp only [insertSorted, if_neg after, if_neg other, ih others, List.cons_append]

/-- Members that are in order stay as they are. -/
theorem sortMembers_of_increasing {α : Type} {members : List (String × α)} (sorted : Increasing members) :
    sortMembers members = members := by
  induction members using List.reverseRecOn with
  | nil => rfl
  | append_singleton members m ih =>
    obtain ⟨before, _, last⟩ := List.pairwise_append.mp sorted
    rw [sortMembers, List.foldl_append, ← sortMembers, ih before]
    refine insertSorted_last fun k member => ?_
    obtain ⟨e, inside, rfl⟩ := List.mem_map.mp member
    exact last e inside m List.mem_cons_self

mutual

/-- Sorting changes nothing in a sorted tree. -/
theorem sorted_of_isSorted : ∀ {j : Json}, j.IsSorted → j.sorted = j
  | .null, _ | .bool _, _ | .number _, _ | .string _, _ => rfl
  | .array items, inOrder => by rw [sorted, sortedItems_of_itemsSorted inOrder]
  | .object members, inOrder => by
    rw [sorted, sortedMembers_of_membersSorted inOrder.2, sortMembers_of_increasing inOrder.1]

theorem sortedItems_of_itemsSorted : ∀ {items : List Json}, ItemsSorted items → sortedItems items = items
  | [], _ => rfl
  | item :: items, inOrder => by
    rw [sortedItems, sorted_of_isSorted inOrder.1, sortedItems_of_itemsSorted inOrder.2]

theorem sortedMembers_of_membersSorted : ∀ {members : List (String × Json)}, MembersSorted members →
    sortedMembers members = members
  | [], _ => rfl
  | (key, value) :: members, inOrder => by
    rw [sortedMembers, sorted_of_isSorted inOrder.1, sortedMembers_of_membersSorted inOrder.2]

end

/-! ### Codecs -/

namespace Codec
variable {α β : Type}

theorem restores_data {room : Nat} {j : Json} (sorted : j.IsSorted) (integers : HasIntegers j)
    (shallow : room + j.depth ≤ maxDepth) : (data room).Restores j := by
  refine ⟨fun source => ?_, integers⟩
  have read : j.toOutline.tree (maxDepth - room) = .ok j := tree_toOutline (by omega)
  simp only [data, id_eq, read, Except.map, sorted_of_isSorted sorted]

theorem restores_convert {codec : Codec α} {make : α → β} {parts : β → α} {value : β}
    (restores : codec.Restores (parts value)) (same : make (parts value) = value) :
    (codec.convert make parts).Restores value := by
  refine ⟨fun source => ?_, restores.integers⟩
  simp only [convert, restores.read source, Except.map, same]

theorem restores_pair {first : Codec α} {second : Codec β} {value : α × β} (ofFirst : first.Restores value.1)
    (ofSecond : second.Restores value.2) : (pair first second).Restores value := by
  refine ⟨fun source => ?_, ofFirst.integers, ofSecond.integers, trivial⟩
  simp only [pair, toOutline, toItems, ofFirst.read source, ofSecond.read source]
  rfl

theorem restores_optional_none {codec : Codec α} : codec.optional.Restores none := ⟨fun _ => rfl, trivial⟩

/-- A name out of a choice is read as the value that has the name. -/
theorem restores_choice {choices : List (String × α)} {name : α → String} {value : α}
    (found : choices.find? (fun c => c.1 = name value) = some (name value, value)) :
    (choice choices name).Restores value := by
  refine ⟨fun source => ?_, trivial⟩
  simp only [choice, toOutline, readChoice, choose, found]

theorem putEntry_of_absent {name : String} {value : α} {entries : List (String × α)}
    (absent : name ∉ entries.map Prod.fst) : putEntry name value entries = entries ++ [(name, value)] := by
  induction entries with
  | nil => rfl
  | cons e entries ih =>
    rw [List.map_cons, List.mem_cons, not_or] at absent
    simp only [putEntry, if_neg (Ne.symm absent.1), ih absent.2, List.cons_append]

/-- Members with new names are added to an index in their order. -/
theorem readMembers_put {codec : Codec α} {entries : List (String × α)} (each : ∀ e ∈ entries, codec.Restores e.2)
    (index : Index α) (distinct : (index.names ++ entries.map Prod.fst).Nodup) (source : Source) :
    ∃ result, readMembers (codec.read source) Index.put index
        (toMembers (entries.map fun e => (e.1, codec.write e.2))) = .ok result ∧
      result.entries = index.entries ++ entries := by
  induction entries generalizing index with
  | nil => exact ⟨index, rfl, (List.append_nil _).symm⟩
  | cons e entries ih =>
    obtain ⟨first, others⟩ := List.forall_mem_cons.mp each
    have fresh : e.1 ∉ index.names := fun known =>
      (List.nodup_append.mp distinct).2.2 e.1 known e.1 List.mem_cons_self rfl
    have added : (index.put e.1 e.2).entries = index.entries ++ [e] := putEntry_of_absent fresh
    obtain ⟨result, read, listed⟩ := ih others (index.put e.1 e.2) (by
      rw [Index.names, added, List.map_append, List.append_assoc]
      exact distinct)
    refine ⟨result, ?_, by rw [listed, added, List.append_assoc]; rfl⟩
    simp only [List.map_cons, toMembers, readMembers, first.read source]
    exact read

theorem restores_index {codec : Codec α} {index : Index α} (each : ∀ e ∈ index.entries, codec.Restores e.2) :
    (Codec.index codec).Restores index := by
  refine ⟨fun source => ?_, ?_⟩
  · obtain ⟨result, read, listed⟩ := readMembers_put each .empty index.nodup source
    simp only [Codec.index, toOutline]
    rw [read, Index.entries_injective listed]
  · have integers : ∀ {entries : List (String × α)}, (∀ e ∈ entries, codec.Restores e.2) →
        MembersHaveIntegers (entries.map fun e => (e.1, codec.write e.2)) := by
      intro entries each
      induction entries with
      | nil => trivial
      | cons e entries ih =>
        obtain ⟨first, others⟩ := List.forall_mem_cons.mp each
        exact ⟨first.integers, ih others⟩
    exact integers each

end Codec

/-! ### Fields that may be missing -/

namespace Field
variable {α : Type} {name : String} {codec : Codec α} {value : Option α}

theorem restores_optionalMember (restores : ∀ v, value = some v → codec.Restores v)
    (notNull : ∀ v, codec.write v ≠ .null) : (optionalMember name codec).Restores value := by
  have same : (optional name codec).Restores value := restores_optional restores notNull
  exact same

theorem restores_nullable (restores : ∀ v, value = some v → codec.Restores v) (notNull : ∀ v, codec.write v ≠ .null) :
    (nullable name codec).Restores value := by
  cases value with
  | none => exact Codec.restores_optional_none
  | some v => exact Codec.restores_optional_some (restores v rfl) (notNull v)

end Field
end Json
end PatchPanel
