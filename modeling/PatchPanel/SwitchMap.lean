import PatchPanel.Index
import PatchPanel.Json.Basic

/-!
Lists that belong to switches. The switches stand in the order of their names, compared code point
by code point, which is also the order of the bytes of their UTF-8 forms.
-/
namespace PatchPanel

/-- Names in strictly increasing order. -/
def Increasing {α : Type} (entries : List (String × α)) : Prop :=
  entries.Pairwise (fun a b => a.1 < b.1)

theorem lt_of_not_lt_of_ne {a b : String} (h : ¬ a < b) (hne : a ≠ b) : b < a := by
  grind

theorem mem_names_insertSorted {α : Type} {key k : String} {value : α}
    {entries : List (String × α)} :
    k ∈ (insertSorted key value entries).map Prod.fst ↔ k = key ∨ k ∈ entries.map Prod.fst := by
  induction entries with
  | nil => simp [insertSorted]
  | cons e rest ih =>
    simp only [insertSorted]
    split
    · simp
    · split
      · next h => simp [h]
      · simp only [List.map_cons, List.mem_cons, ih]
        constructor
        · rintro (h | h | h) <;> simp [h]
        · rintro (h | h | h) <;> simp [h]

theorem increasing_cons {α : Type} {e : String × α} {rest : List (String × α)} :
    Increasing (e :: rest) ↔ (∀ k ∈ rest.map Prod.fst, e.1 < k) ∧ Increasing rest := by
  simp [Increasing, List.pairwise_cons]

theorem increasing_insertSorted {α : Type} {key : String} {value : α}
    {entries : List (String × α)} (h : Increasing entries) :
    Increasing (insertSorted key value entries) := by
  induction entries with
  | nil => simp [insertSorted, Increasing]
  | cons e rest ih =>
    obtain ⟨first, tail⟩ := increasing_cons.1 h
    simp only [insertSorted]
    split
    · next hlt =>
      refine increasing_cons.2 ⟨fun k hk => ?_, h⟩
      rcases List.mem_cons.1 hk with hk | hk
      · exact hk ▸ hlt
      · exact String.lt_trans hlt (first k hk)
    · next hlt =>
      split
      · next heq => exact increasing_cons.2 ⟨fun k hk => heq ▸ first k hk, tail⟩
      · next hne =>
        refine increasing_cons.2 ⟨fun k hk => ?_, ih tail⟩
        rcases mem_names_insertSorted.1 hk with hk | hk
        · exact hk ▸ lt_of_not_lt_of_ne hlt hne
        · exact first k hk

theorem increasing_iff_names {α : Type} {entries : List (String × α)} :
    Increasing entries ↔ (entries.map Prod.fst).Pairwise (· < ·) := by
  rw [Increasing, List.pairwise_map]

theorem increasing_of_names_eq {α β : Type} {as : List (String × α)} {bs : List (String × β)}
    (h : bs.map Prod.fst = as.map Prod.fst) (ha : Increasing as) : Increasing bs := by
  rw [increasing_iff_names, h]
  exact increasing_iff_names.1 ha

/-- Append `values` to the list of `key`, which is new if the key is. -/
def appendEntry {α : Type} (key : String) (values : List α) :
    List (String × List α) → List (String × List α)
  | [] => [(key, values)]
  | (k, old) :: rest =>
    if key < k then (key, values) :: (k, old) :: rest
    else if key = k then (k, old ++ values) :: rest
    else (k, old) :: appendEntry key values rest

theorem mem_names_appendEntry {α : Type} {key k : String} {values : List α}
    {entries : List (String × List α)} :
    k ∈ (appendEntry key values entries).map Prod.fst ↔ k = key ∨ k ∈ entries.map Prod.fst := by
  induction entries with
  | nil => simp [appendEntry]
  | cons e rest ih =>
    simp only [appendEntry]
    split
    · simp
    · split
      · next h => simp [h]
      · simp only [List.map_cons, List.mem_cons, ih]
        constructor
        · rintro (h | h | h) <;> simp [h]
        · rintro (h | h | h) <;> simp [h]

theorem increasing_appendEntry {α : Type} {key : String} {values : List α}
    {entries : List (String × List α)} (h : Increasing entries) :
    Increasing (appendEntry key values entries) := by
  induction entries with
  | nil => simp [appendEntry, Increasing]
  | cons e rest ih =>
    obtain ⟨first, tail⟩ := increasing_cons.1 h
    simp only [appendEntry]
    split
    · next hlt =>
      refine increasing_cons.2 ⟨fun k hk => ?_, h⟩
      rcases List.mem_cons.1 hk with hk | hk
      · exact hk ▸ hlt
      · exact String.lt_trans hlt (first k hk)
    · next hlt =>
      split
      · exact increasing_cons.2 ⟨first, tail⟩
      · next hne =>
        refine increasing_cons.2 ⟨fun k hk => ?_, ih tail⟩
        rcases mem_names_appendEntry.1 hk with hk | hk
        · exact hk ▸ lt_of_not_lt_of_ne hlt hne
        · exact first k hk

/-- A list for each of some switches, in the order of the switches' names. -/
structure SwitchMap (α : Type) where
  entries : List (String × List α)
  increasing : Increasing entries
  deriving DecidableEq

namespace SwitchMap

variable {α β : Type}

instance : Inhabited (SwitchMap α) := ⟨⟨[], List.Pairwise.nil⟩⟩

def empty : SwitchMap α := ⟨[], List.Pairwise.nil⟩

def names (m : SwitchMap α) : List String := m.entries.map Prod.fst

/-- The list of a switch, if the switch is there. -/
def get? (m : SwitchMap α) (switch : String) : Option (List α) :=
  (m.entries.find? (fun e => e.1 = switch)).map Prod.snd

/-- Append values to the list of a switch. -/
def append (m : SwitchMap α) (switch : String) (values : List α) : SwitchMap α :=
  ⟨appendEntry switch values m.entries, increasing_appendEntry m.increasing⟩

/-- Append one value to the list of a switch. -/
def push (m : SwitchMap α) (switch : String) (value : α) : SwitchMap α := m.append switch [value]

/-- Append every list of `more` to the list of the same switch; nothing is replaced or dropped. -/
def merge (m more : SwitchMap α) : SwitchMap α :=
  more.entries.foldl (fun m e => m.append e.1 e.2) m

/-- Give a switch a list in place of the one that it has. -/
def put (m : SwitchMap α) (switch : String) (values : List α) : SwitchMap α :=
  ⟨insertSorted switch values m.entries, increasing_insertSorted m.increasing⟩

/-- The map of a list of values with the switches that they are for, in order. -/
def ofList (emissions : List (String × α)) : SwitchMap α :=
  emissions.foldl (fun m e => m.push e.1 e.2) empty

/-- All values with their switches, switch by switch. -/
def toList (m : SwitchMap α) : List (String × α) :=
  m.entries.flatMap fun e => e.2.map fun value => (e.1, value)

/-- The map with a function that may fail applied to every switch's list, in the order of the
switches; the first failure is the failure of the whole. -/
def traverse {ε : Type} (f : List α → Except ε (List β)) (m : SwitchMap α) :
    Except ε (SwitchMap β) :=
  match h : traverseEntries (fun _ values => f values) m.entries with
  | .ok entries => .ok ⟨entries, increasing_of_names_eq (names_traverseEntries h) m.increasing⟩
  | .error e => .error e

end SwitchMap
end PatchPanel
