/-!
Named values in the order of a file. A name that is given twice keeps its first position and its
last value, so the names are always distinct.
-/
namespace PatchPanel

/-- Give `name` the value `value` in a list of named values: in place if the name is there, at the
end otherwise. -/
def putEntry {α : Type} (name : String) (value : α) : List (String × α) → List (String × α)
  | [] => [(name, value)]
  | (n, v) :: rest => if n = name then (n, value) :: rest else (n, v) :: putEntry name value rest

theorem mem_names_putEntry {α : Type} {name n : String} {value : α} {entries : List (String × α)} :
    n ∈ (putEntry name value entries).map Prod.fst ↔ n = name ∨ n ∈ entries.map Prod.fst := by
  induction entries with
  | nil => simp [putEntry]
  | cons e rest ih =>
    simp only [putEntry]
    split
    · next h => subst h; simp
    · simp only [List.map_cons, List.mem_cons, ih]
      constructor
      · rintro (h | h | h) <;> simp [h]
      · rintro (h | h | h) <;> simp [h]

theorem nodup_names_putEntry {α : Type} {name : String} {value : α} {entries : List (String × α)}
    (h : (entries.map Prod.fst).Nodup) : ((putEntry name value entries).map Prod.fst).Nodup := by
  induction entries with
  | nil => simp [putEntry]
  | cons e rest ih =>
    rw [List.map_cons, List.nodup_cons] at h
    simp only [putEntry]
    split
    · simpa using h
    · next hne =>
      rw [List.map_cons, List.nodup_cons]
      refine ⟨fun hm => ?_, ih h.2⟩
      rcases mem_names_putEntry.1 hm with hm | hm
      · exact hne hm
      · exact h.1 hm

/-- Apply a function that may fail to every value, in order, and stop at the first failure. -/
def traverseEntries {ε α β : Type} (f : String → α → Except ε β) :
    List (String × α) → Except ε (List (String × β))
  | [] => .ok []
  | (name, value) :: rest => do
    let b ← f name value
    let bs ← traverseEntries f rest
    return (name, b) :: bs

theorem names_traverseEntries {ε α β : Type} {f : String → α → Except ε β}
    {entries : List (String × α)} {result : List (String × β)}
    (h : traverseEntries f entries = .ok result) :
    result.map Prod.fst = entries.map Prod.fst := by
  induction entries generalizing result with
  | nil => cases h; rfl
  | cons e rest ih =>
    simp only [traverseEntries, bind, Except.bind, pure, Except.pure] at h
    split at h
    · cases h
    · split at h
      · cases h
      · next hrest => cases h; simp [ih hrest]

/-- Named values in file order, each name once. -/
structure Index (α : Type) where
  entries : List (String × α)
  nodup : (entries.map Prod.fst).Nodup
  deriving DecidableEq

namespace Index

variable {α β : Type}

instance : Inhabited (Index α) := ⟨⟨[], List.nodup_nil⟩⟩

def empty : Index α := ⟨[], List.nodup_nil⟩

def put (index : Index α) (name : String) (value : α) : Index α :=
  ⟨putEntry name value index.entries, nodup_names_putEntry index.nodup⟩

/-- The index of a list of named values, read from left to right. -/
def ofList (entries : List (String × α)) : Index α :=
  entries.foldl (fun index e => index.put e.1 e.2) empty

def names (index : Index α) : List String := index.entries.map Prod.fst

def values (index : Index α) : List α := index.entries.map Prod.snd

def get? (index : Index α) (name : String) : Option α :=
  (index.entries.find? (fun e => e.1 = name)).map Prod.snd

def contains (index : Index α) (name : String) : Bool := (index.get? name).isSome

def size (index : Index α) : Nat := index.entries.length

/-- The index with `f` applied to every value. -/
def map (f : α → β) (index : Index α) : Index β :=
  ⟨index.entries.map (fun e => (e.1, f e.2)), by
    simpa [List.map_map, Function.comp_def] using index.nodup⟩

/-- The index with a function that may fail applied to every name and value, in file order; the
first failure is the failure of the whole. -/
def traverse {ε : Type} (f : String → α → Except ε β) (index : Index α) : Except ε (Index β) :=
  match h : traverseEntries f index.entries with
  | .ok entries => .ok ⟨entries, by rw [names_traverseEntries h]; exact index.nodup⟩
  | .error e => .error e

end Index
end PatchPanel
