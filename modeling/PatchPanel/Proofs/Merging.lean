import PatchPanel.Proofs.SwitchMap
import Mathlib.Data.List.Induction

/-!
Maps that grow step by step. A step pushes one value to a switch or merges another map in, and it appends to the list
of every switch what it supplies for this switch (`Addition.listOf_apply`). So a run of steps that begins with nothing
gathers what its steps supply, switch by switch and in the order of the steps (`gathers_grown`). A push is the merge of
a map of one value (`push_eq_merge`), so all that holds of merges holds of runs.
-/
namespace PatchPanel.SwitchMap
variable {α : Type}

/-! ### Merging as an operation on maps -/

theorem merge_assoc (m more most : SwitchMap α) : (m.merge more).merge most = m.merge (more.merge most) := by
  apply ext
  · intro switch
    simp [or_assoc]
  · intro switch
    simp

/-- A push is the merge of a map of one value. -/
theorem push_eq_merge (m : SwitchMap α) (switch : String) (value : α) :
    m.push switch value = m.merge (ofList [(switch, value)]) := by
  apply ext
  · intro name
    simp [or_comm]
  · intro name
    by_cases here : switch = name <;> simp [valuesFor_cons, here]

/-- The order of two merged maps that share no switch does not matter. -/
theorem merge_comm_of_apart {m more most : SwitchMap α} (apart : ∀ switch ∈ more.names, switch ∉ most.names) :
    (m.merge more).merge most = (m.merge most).merge more := by
  apply ext
  · intro switch
    simp only [mem_names_merge, or_right_comm]
  · intro switch
    rw [listOf_merge, listOf_merge, listOf_merge, listOf_merge, List.append_assoc, List.append_assoc]
    by_cases named : switch ∈ more.names
    · rw [listOf_eq_nil (apart switch named), List.append_nil, List.nil_append]
    · rw [listOf_eq_nil named, List.append_nil, List.nil_append]

/-! ### Steps -/

/-- A step by which a map grows: a value for a switch, or all the values of another map. -/
inductive Addition (α : Type) where
  | push (switch : String) (value : α)
  | merge (more : SwitchMap α)

namespace Addition

/-- The map after a step. -/
def apply (m : SwitchMap α) : Addition α → SwitchMap α
  | .push switch value => m.push switch value
  | .merge more => m.merge more

/-- The switches that a step names, with values or without any. -/
def names : Addition α → List String
  | .push switch _ => [switch]
  | .merge more => more.names

/-- The values that a step supplies for a switch. -/
def supplies (switch : String) : Addition α → List α
  | .push key value => if key = switch then [value] else []
  | .merge more => more.listOf switch

/-- The map that a step merges in. -/
def toMap : Addition α → SwitchMap α
  | .push switch value => ofList [(switch, value)]
  | .merge more => more

theorem apply_eq_merge (m : SwitchMap α) (a : Addition α) : a.apply m = m.merge a.toMap := by
  cases a with
  | push switch value => exact push_eq_merge m switch value
  | merge more => rfl

theorem names_toMap (a : Addition α) : a.toMap.names = a.names := by
  cases a with
  | push switch value => rfl
  | merge more => rfl

theorem listOf_toMap (a : Addition α) (switch : String) : a.toMap.listOf switch = a.supplies switch := by
  cases a with
  | push key value =>
    rw [toMap, listOf_ofList, valuesFor_cons]
    rfl
  | merge more => rfl

/-- A step adds the switches that it names. -/
theorem mem_names_apply {m : SwitchMap α} {a : Addition α} {switch : String} :
    switch ∈ (a.apply m).names ↔ switch ∈ m.names ∨ switch ∈ a.names := by
  rw [apply_eq_merge, mem_names_merge, names_toMap]

/-- A step appends what it supplies for a switch to the list of this switch, and leaves all other lists. -/
theorem listOf_apply (m : SwitchMap α) (a : Addition α) (switch : String) :
    (a.apply m).listOf switch = m.listOf switch ++ a.supplies switch := by
  rw [apply_eq_merge, listOf_merge, listOf_toMap]

theorem apply_comm_of_apart (m : SwitchMap α) {a b : Addition α} (apart : ∀ switch ∈ a.names, switch ∉ b.names) :
    b.apply (a.apply m) = a.apply (b.apply m) := by
  rw [← names_toMap, ← names_toMap] at apart
  simp only [apply_eq_merge]
  exact merge_comm_of_apart apart

end Addition

/-! ### Runs -/

/-- The map after steps that begin with nothing. -/
def grown (steps : List (Addition α)) : SwitchMap α := steps.foldl (fun m a => a.apply m) empty

/-- A map has what steps have supplied: the switches that they name and no others, and for each of them all values in
    the order of the steps. -/
structure Gathers (steps : List (Addition α)) (m : SwitchMap α) : Prop where
  names : ∀ switch, switch ∈ m.names ↔ ∃ a ∈ steps, switch ∈ a.names
  lists : ∀ switch, m.listOf switch = steps.flatMap (Addition.supplies switch)

theorem gathers_empty : Gathers [] (empty : SwitchMap α) := by
  refine ⟨fun switch => ?_, fun switch => rfl⟩
  simp

/-- One more step adds what it supplies behind what is there. -/
theorem Gathers.apply {steps : List (Addition α)} {m : SwitchMap α} (gathers : Gathers steps m) (a : Addition α) :
    Gathers (steps ++ [a]) (a.apply m) := by
  refine ⟨fun switch => ?_, fun switch => ?_⟩
  · rw [Addition.mem_names_apply, gathers.names]
    constructor
    · rintro (⟨b, member, named⟩ | named)
      · exact ⟨b, List.mem_append_left [a] member, named⟩
      · exact ⟨a, List.mem_append_right steps List.mem_cons_self, named⟩
    · rintro ⟨b, member, named⟩
      rcases List.mem_append.mp member with earlier | last
      · exact .inl ⟨b, earlier, named⟩
      · obtain rfl := List.mem_singleton.mp last
        exact .inr named
  · rw [Addition.listOf_apply, gathers.lists, List.flatMap_append, List.flatMap_singleton]

/-- Steps lose nothing and move nothing, however many there are. -/
theorem gathers_grown (steps : List (Addition α)) : Gathers steps (grown steps) := by
  induction steps using List.reverseRecOn with
  | nil => exact gathers_empty
  | append_singleton steps a ih =>
    have last : grown (steps ++ [a]) = a.apply (grown steps) := by
      rw [grown, List.foldl_append]
      rfl
    rw [last]
    exact ih.apply a

/-- A run of pushes and merges names the switches that its steps name and no others, and lists for each of them what
    the steps supply for it, step after step. Merging is associative, and a map without switches changes nothing. A
    push is the merge of a map of one value. Two steps that share no switch may change places. -/
theorem grown_concatenates (steps : List (Addition α)) :
    Gathers steps (grown steps) ∧
    (∀ m more most : SwitchMap α, (m.merge more).merge most = m.merge (more.merge most)) ∧
    (∀ m : SwitchMap α, empty.merge m = m ∧ m.merge empty = m) ∧
    (∀ (m : SwitchMap α) (switch : String) (value : α), m.push switch value = m.merge (ofList [(switch, value)])) ∧
    ∀ (before later : List (Addition α)) (a b : Addition α), (∀ switch ∈ a.names, switch ∉ b.names) →
      grown (before ++ a :: b :: later) = grown (before ++ b :: a :: later) := by
  refine ⟨gathers_grown steps, merge_assoc, fun m => ⟨empty_merge m, merge_empty m⟩, push_eq_merge, ?_⟩
  intro before later a b apart
  simp only [grown, List.foldl_append, List.foldl_cons]
  rw [Addition.apply_comm_of_apart _ apart]

/-- A map with two values for a switch, one for another, and a third switch without values. -/
def mixedMap : SwitchMap Nat := (ofList [("s1", 2), ("s2", 3), ("s1", 4)]).append "s3" []

/-- The values of `s1` stand in the order of the three steps that supply them, and none of the two that are equal is
    dropped. The switch without values is there. A push to a fourth switch may stand before the merge or behind it. -/
theorem grown_concatenates_mixed :
    (grown [.push "s1" 1, .merge mixedMap, .push "s4" 5, .push "s1" 1]).entries =
      [("s1", [1, 2, 4, 1]), ("s2", [3]), ("s3", []), ("s4", [5])] ∧
    Gathers [.push "s1" 1, .merge mixedMap, .push "s4" 5, .push "s1" 1]
      (grown [.push "s1" 1, .merge mixedMap, .push "s4" 5, .push "s1" 1]) ∧
    grown [.push "s1" 1, .merge mixedMap, .push "s4" 5, .push "s1" 1] =
      grown [.push "s1" 1, .push "s4" 5, .merge mixedMap, .push "s1" 1] := by
  obtain ⟨gathers, _, _, _, exchange⟩ :=
    grown_concatenates [.push "s1" 1, .merge mixedMap, .push "s4" 5, .push "s1" 1]
  have apart : ∀ switch ∈ (Addition.merge mixedMap).names, switch ∉ (Addition.push "s4" 5).names := by decide
  exact ⟨by decide, gathers, exchange [.push "s1" 1] [.push "s1" 1] _ _ apart⟩

end PatchPanel.SwitchMap
