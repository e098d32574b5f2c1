import PatchPanel.SwitchMap
import PatchPanel.Proofs.Index
import Mathlib.Data.List.Sort

/-!
Lists that belong to switches are groupings of flat lists. Every map is fixed by its names and by the
list of each name (`ext`). Pushing, appending and merging concatenate the flat lists that the maps
are made from (`merge_ofList`), so the order of the values of one switch is that of the flat list.
-/
namespace PatchPanel.SwitchMap
variable {α β ε : Type}

/-- The list of a switch, which is empty if the switch is not there. -/
def listOf (m : SwitchMap α) (switch : String) : List α := (m.get? switch).getD []

/-! ### Looking up in a list of entries -/

private def entryList (switch : String) (entries : List (String × List α)) : List α :=
  ((entries.find? (fun e => e.1 = switch)).map Prod.snd).getD []

private theorem entryList_absent {switch : String} {entries : List (String × List α)}
    (absent : switch ∉ entries.map Prod.fst) : entryList switch entries = [] := by
  have none : entries.find? (fun e => e.1 = switch) = none := by
    rw [List.find?_eq_none]
    intro e member same
    exact absent (List.mem_map.mpr ⟨e, member, by simpa using same⟩)
  simp [entryList, none]

private theorem entryList_cons (switch : String) (e : String × List α) (rest : List (String × List α)) :
    entryList switch (e :: rest) = if e.1 = switch then e.2 else entryList switch rest := by
  unfold entryList
  by_cases same : e.1 = switch <;> simp [same]

private theorem entryList_appendEntry {key switch : String} {values : List α}
    {entries : List (String × List α)} (sorted : Increasing entries) :
    entryList switch (appendEntry key values entries) =
      entryList switch entries ++ if key = switch then values else [] := by
  induction entries with
  | nil =>
    simp only [appendEntry, entryList_cons]
    simp [entryList]
  | cons e rest ih =>
    obtain ⟨k, old⟩ := e
    obtain ⟨first, tail⟩ := increasing_cons.mp sorted
    simp only [appendEntry]
    by_cases before : key < k
    · rw [if_pos before, entryList_cons]
      by_cases same : key = switch
      · have absent : switch ∉ ((k, old) :: rest).map Prod.fst := by
          rw [List.map_cons, List.mem_cons]
          rintro (here | later)
          · rw [same, here] at before
            exact String.lt_irrefl k before
          · have after := first switch later
            rw [same] at before
            exact String.lt_irrefl switch (String.lt_trans before after)
        simp [same, entryList_absent absent]
      · simp [same]
    · rw [if_neg before]
      by_cases equal : key = k
      · subst equal
        by_cases same : key = switch <;> simp [entryList_cons, same]
      · rw [if_neg equal, entryList_cons, entryList_cons, ih tail]
        by_cases here : k = switch
        · have other : key ≠ switch := fun same => equal (same.trans here.symm)
          simp [here, other]
        · simp [here]

/-! ### Names and lists fix a map -/

theorem names_pairwise (m : SwitchMap α) : m.names.Pairwise (· < ·) := increasing_iff_names.mp m.increasing

theorem names_nodup (m : SwitchMap α) : m.names.Nodup := by
  apply m.names_pairwise.imp
  intro a b less same
  subst same
  exact String.lt_irrefl a less

theorem get?_eq_some_iff {m : SwitchMap α} {switch : String} {values : List α} :
    m.get? switch = some values ↔ (switch, values) ∈ m.entries := by
  unfold get?
  constructor
  · intro found
    obtain ⟨e, search, rfl⟩ := Option.map_eq_some_iff.mp found
    exact mem_of_find?_entry search
  · intro member
    rw [find?_entry_of_mem m.names_nodup member]
    rfl

/-- A map has a list exactly for the switches that it names. -/
theorem get?_eq (m : SwitchMap α) (switch : String) :
    m.get? switch = if switch ∈ m.names then some (m.listOf switch) else none := by
  by_cases named : switch ∈ m.names
  · obtain ⟨⟨name, values⟩, member, rfl⟩ := List.mem_map.mp named
    simp [named, listOf, get?_eq_some_iff.mpr member]
  · rw [if_neg named]
    cases found : m.get? switch with
    | none => rfl
    | some values => exact absurd (List.mem_map_of_mem (get?_eq_some_iff.mp found)) named

theorem listOf_eq_nil {m : SwitchMap α} {switch : String} (absent : switch ∉ m.names) : m.listOf switch = [] := by
  rw [listOf, get?_eq, if_neg absent]
  rfl

theorem mem_names_of_mem_listOf {m : SwitchMap α} {switch : String} {value : α} (member : value ∈ m.listOf switch) :
    switch ∈ m.names := by
  by_contra absent
  rw [listOf_eq_nil absent] at member
  cases member

theorem entries_eq (m : SwitchMap α) : m.entries = m.names.map fun switch => (switch, m.listOf switch) := by
  have same : ∀ e ∈ m.entries, (e.1, m.listOf e.1) = e := by
    rintro ⟨switch, values⟩ member
    simp [listOf, get?_eq_some_iff.mpr member]
  calc m.entries = m.entries.map id := (List.map_id _).symm
    _ = m.entries.map fun e => (e.1, m.listOf e.1) := (List.map_congr_left same).symm
    _ = m.names.map fun switch => (switch, m.listOf switch) := by rw [names, List.map_map]; rfl

/-- The names stand in their order, so they are given by which of them are there. -/
theorem names_eq {m : SwitchMap α} {k : SwitchMap β} (names : ∀ switch, switch ∈ m.names ↔ switch ∈ k.names) :
    m.names = k.names := by
  have perm : m.names.Perm k.names := (List.perm_ext_iff_of_nodup m.names_nodup k.names_nodup).mpr names
  exact perm.eq_of_pairwise (fun a b _ _ less more => absurd (String.lt_trans less more) (String.lt_irrefl a))
    m.names_pairwise k.names_pairwise

/-- Maps with the same names and the same list for each name are one map. -/
theorem ext {m k : SwitchMap α} (names : ∀ switch, switch ∈ m.names ↔ switch ∈ k.names)
    (lists : ∀ switch, m.listOf switch = k.listOf switch) : m = k := by
  have entries : m.entries = k.entries := by
    rw [m.entries_eq, k.entries_eq, names_eq names]
    simp [lists]
  cases m; cases k
  simpa using entries

/-! ### What the operations do to names and lists -/

@[simp] theorem names_empty : (empty : SwitchMap α).names = [] := rfl
@[simp] theorem listOf_empty (switch : String) : (empty : SwitchMap α).listOf switch = [] := rfl

@[simp] theorem mem_names_append {m : SwitchMap α} {key switch : String} {values : List α} :
    switch ∈ (m.append key values).names ↔ switch = key ∨ switch ∈ m.names := mem_names_appendEntry

@[simp] theorem listOf_append (m : SwitchMap α) (key switch : String) (values : List α) :
    (m.append key values).listOf switch = m.listOf switch ++ if key = switch then values else [] :=
  entryList_appendEntry m.increasing

@[simp] theorem mem_names_push {m : SwitchMap α} {key switch : String} {value : α} :
    switch ∈ (m.push key value).names ↔ switch = key ∨ switch ∈ m.names := mem_names_append

@[simp] theorem listOf_push (m : SwitchMap α) (key switch : String) (value : α) :
    (m.push key value).listOf switch = m.listOf switch ++ if key = switch then [value] else [] :=
  listOf_append m key switch [value]

private theorem mem_names_foldl {entries : List (String × List α)} {m : SwitchMap α} {switch : String} :
    switch ∈ (entries.foldl (fun m e => m.append e.1 e.2) m).names ↔
      switch ∈ m.names ∨ switch ∈ entries.map Prod.fst := by
  induction entries generalizing m with
  | nil => simp
  | cons e rest ih =>
    rw [List.foldl_cons, ih, mem_names_append, List.map_cons, List.mem_cons]
    tauto

private theorem listOf_foldl {entries : List (String × List α)} (sorted : Increasing entries)
    (m : SwitchMap α) (switch : String) :
    (entries.foldl (fun m e => m.append e.1 e.2) m).listOf switch = m.listOf switch ++ entryList switch entries := by
  induction entries generalizing m with
  | nil => simp [entryList]
  | cons e rest ih =>
    obtain ⟨first, tail⟩ := increasing_cons.mp sorted
    rw [List.foldl_cons, ih tail, listOf_append, entryList_cons]
    by_cases here : e.1 = switch
    · have absent : switch ∉ rest.map Prod.fst := fun later =>
        String.lt_irrefl switch (by have less := first switch later; rwa [here] at less)
      simp [here, entryList_absent absent]
    · simp [here]

@[simp] theorem mem_names_merge {m more : SwitchMap α} {switch : String} :
    switch ∈ (m.merge more).names ↔ switch ∈ m.names ∨ switch ∈ more.names := mem_names_foldl

@[simp] theorem listOf_merge (m more : SwitchMap α) (switch : String) :
    (m.merge more).listOf switch = m.listOf switch ++ more.listOf switch :=
  listOf_foldl more.increasing m switch

private theorem ofList_foldl (es : List (String × α)) (m : SwitchMap α) (switch : String) :
    (switch ∈ (es.foldl (fun m e => m.push e.1 e.2) m).names ↔ switch ∈ m.names ∨ switch ∈ es.map Prod.fst) ∧
      (es.foldl (fun m e => m.push e.1 e.2) m).listOf switch = m.listOf switch ++ valuesFor switch es := by
  induction es generalizing m with
  | nil => simp
  | cons e rest ih =>
    obtain ⟨named, listed⟩ := ih (m.push e.1 e.2)
    rw [List.foldl_cons, named, listed, mem_names_push, listOf_push, valuesFor_cons, List.map_cons, List.mem_cons]
    refine ⟨by tauto, ?_⟩
    by_cases here : e.1 = switch <;> simp [here]

@[simp] theorem mem_names_ofList {es : List (String × α)} {switch : String} :
    switch ∈ (ofList es).names ↔ switch ∈ es.map Prod.fst := by
  rw [ofList, (ofList_foldl es empty switch).1]
  simp

@[simp] theorem listOf_ofList (es : List (String × α)) (switch : String) :
    (ofList es).listOf switch = valuesFor switch es := by
  rw [ofList, (ofList_foldl es empty switch).2]
  simp

/-- Rearranging a flat list rearranges the list of each switch. -/
theorem ofList_perm {es fs : List (String × α)} (perm : es.Perm fs) :
    (ofList es).names = (ofList fs).names ∧ ∀ switch, ((ofList es).listOf switch).Perm ((ofList fs).listOf switch) := by
  refine ⟨names_eq fun switch => ?_, fun switch => ?_⟩
  · rw [mem_names_ofList, mem_names_ofList]
    exact (perm.map Prod.fst).mem_iff
  · rw [listOf_ofList, listOf_ofList]
    exact (perm.filter _).map _

/-- The map of a flat list names the switches of the list, each with its values in order. -/
theorem get?_ofList (es : List (String × α)) (switch : String) :
    (ofList es).get? switch = if switch ∈ es.map Prod.fst then some (valuesFor switch es) else none := by
  rw [get?_eq, listOf_ofList]
  by_cases named : switch ∈ es.map Prod.fst
  · rw [if_pos named, if_pos (mem_names_ofList.mpr named)]
  · rw [if_neg named, if_neg (fun inside => named (mem_names_ofList.mp inside))]

/-- Merging the maps of two flat lists groups the lists one after the other. -/
theorem merge_ofList (es later : List (String × α)) : (ofList es).merge (ofList later) = ofList (es ++ later) := by
  apply ext
  · intro switch
    simp
  · intro switch
    simp

@[simp] theorem empty_merge (m : SwitchMap α) : (empty : SwitchMap α).merge m = m := by
  apply ext <;> simp

@[simp] theorem merge_empty (m : SwitchMap α) : m.merge empty = m := rfl

/-! ### All values switch by switch -/

private theorem valuesFor_entries (switch : String) {entries : List (String × List α)}
    (distinct : (entries.map Prod.fst).Nodup) :
    valuesFor switch (entries.flatMap fun e => e.2.map fun value => (e.1, value)) = entryList switch entries := by
  induction entries with
  | nil => rfl
  | cons e rest ih =>
    rw [List.map_cons, List.nodup_cons] at distinct
    rw [List.flatMap_cons, valuesFor_append, ih distinct.2, entryList_cons]
    by_cases here : e.1 = switch
    · rw [here] at distinct ⊢
      rw [valuesFor_map_same, entryList_absent distinct.1, if_pos rfl, List.append_nil]
    · rw [valuesFor_map_other here, if_neg here, List.nil_append]

@[simp] theorem valuesFor_toList (m : SwitchMap α) (switch : String) : valuesFor switch m.toList = m.listOf switch :=
  valuesFor_entries switch m.names_nodup

theorem mem_toList {m : SwitchMap α} {switch : String} {value : α} :
    (switch, value) ∈ m.toList ↔ value ∈ m.listOf switch := by
  rw [← valuesFor_toList, mem_valuesFor]

/-- Grouping a flat list by switches only rearranges it. -/
theorem toList_ofList_perm (es : List (String × α)) : (ofList es).toList.Perm es := by
  apply perm_of_valuesFor
  intro switch
  rw [valuesFor_toList, listOf_ofList]

/-! ### A function on every value -/

/-- The map with a function applied to every value. -/
def map (f : α → β) (m : SwitchMap α) : SwitchMap β :=
  ⟨m.entries.map fun e => (e.1, e.2.map f),
    increasing_of_names_eq (by rw [List.map_map]; rfl) m.increasing⟩

@[simp] theorem names_map (f : α → β) (m : SwitchMap α) : (m.map f).names = m.names := by
  rw [names, names, map, List.map_map]
  rfl

@[simp] theorem listOf_map (f : α → β) (m : SwitchMap α) (switch : String) :
    (m.map f).listOf switch = (m.listOf switch).map f := by
  unfold listOf get? map
  simp only
  rw [List.find?_map, Option.map_map]
  simp only [Function.comp_def]
  cases m.entries.find? fun e => decide (e.1 = switch) <;> rfl

theorem map_id (m : SwitchMap α) : m.map id = m := by
  apply ext <;> simp

theorem map_ofList (f : α → β) (es : List (String × α)) :
    (ofList es).map f = ofList (es.map fun e => (e.1, f e.2)) := by
  apply ext
  · intro switch
    simp
  · intro switch
    rw [listOf_map, listOf_ofList, listOf_ofList, valuesFor_map]

theorem map_merge (f : α → β) (m more : SwitchMap α) : (m.merge more).map f = (m.map f).merge (more.map f) := by
  apply ext <;> simp

/-! ### A function on every list -/

theorem traverse_ok_iff {f : List α → Except ε (List β)} {m : SwitchMap α} {k : SwitchMap β} :
    m.traverse f = .ok k ↔ List.Forall₂ (fun e r => r.1 = e.1 ∧ f e.2 = .ok r.2) m.entries k.entries := by
  rw [← traverseEntries_ok_iff (f := fun _ values => f values)]
  unfold traverse
  obtain ⟨entries, increasing⟩ := k
  split
  · next made => simp [made]
  · next failed => simp [failed]

/-- A traversed map has the same switches, each with what the function makes of its list. -/
theorem listOf_traverse {f : List α → Except ε (List β)} {m : SwitchMap α} {k : SwitchMap β}
    (made : m.traverse f = .ok k) :
    k.names = m.names ∧ ∀ switch ∈ m.names, f (m.listOf switch) = .ok (k.listOf switch) := by
  have each := traverse_ok_iff.mp made
  have same : k.names = m.names := map_eq_of_forall₂ each fun e r here => here.1
  refine ⟨same, fun switch named => ?_⟩
  rw [← same] at named
  obtain ⟨⟨name, result⟩, inside, rfl⟩ := List.mem_map.mp named
  obtain ⟨⟨name', values⟩, before, sameName, given⟩ := exists_left_of_forall₂ each inside
  simp only at sameName given
  subst sameName
  rw [listOf, listOf, get?_eq_some_iff.mpr before, get?_eq_some_iff.mpr inside]
  exact given

theorem exists_traverse {f : List α → Except ε (List β)} {m : SwitchMap α}
    (each : ∀ switch, ∃ values, f (m.listOf switch) = .ok values) : ∃ k, m.traverse f = .ok k := by
  have entries : ∀ e ∈ m.entries, ∃ r : String × List β, r.1 = e.1 ∧ f e.2 = .ok r.2 := by
    rintro ⟨switch, values⟩ member
    obtain ⟨result, given⟩ := each switch
    rw [listOf, get?_eq_some_iff.mpr member] at given
    exact ⟨(switch, result), rfl, given⟩
  obtain ⟨results, related⟩ := exists_forall₂ entries
  have sorted : Increasing results :=
    increasing_of_names_eq (map_eq_of_forall₂ related fun e r here => here.1) m.increasing
  exact ⟨⟨results, sorted⟩, traverse_ok_iff.mpr related⟩

end PatchPanel.SwitchMap
