import PatchPanel.Index
import Mathlib.Data.List.Forall2
import Mathlib.Data.List.Count

/-!
Named values and computations that may fail. A chain of computations gives what its parts give
(`bind_eq_ok_iff`), and has the fault of the first part that fails (`fault?_bind`); a name that stands once leads to
its value (`find?_entry_of_mem`); and the values under a key are taken out of a list in their order (`valuesFor`).
-/
namespace PatchPanel

section
variable {ε δ α β : Type}

@[simp] theorem ok_bind (a : α) (f : α → Except ε β) : (Except.ok a >>= f) = f a := rfl
@[simp] theorem error_bind (e : ε) (f : α → Except ε β) : ((Except.error e : Except ε α) >>= f) = .error e := rfl
@[simp] theorem pure_eq_ok (a : α) : (pure a : Except ε α) = .ok a := rfl

theorem bind_eq_ok_iff {x : Except ε α} {f : α → Except ε β} {b : β} :
    (x >>= f) = .ok b ↔ ∃ a, x = .ok a ∧ f a = .ok b := by
  cases x <;> simp

/-- A check is passed, and then the rest is done. -/
theorem check_bind_eq_ok_iff {x : Except ε Unit} {f : Unit → Except ε β} {b : β} :
    (x >>= f) = .ok b ↔ x = .ok () ∧ f () = .ok b := by
  rcases x with e | ⟨⟩ <;> simp

theorem map_eq_ok_iff {x : Except ε α} {f : α → β} {b : β} :
    x.map f = .ok b ↔ ∃ a, x = .ok a ∧ f a = b := by
  cases x <;> simp [Except.map]

theorem mapError_eq_ok_iff {x : Except ε α} {f : ε → δ} {a : α} : x.mapError f = .ok a ↔ x = .ok a := by
  cases x <;> simp [Except.mapError]

theorem toOption_eq_some_iff {x : Except ε α} {a : α} : x.toOption = some a ↔ x = .ok a := by
  cases x <;> simp [Except.toOption]

/-- The fault of a computation, if it has one. -/
def fault? : Except ε α → Option ε
  | .ok _ => none
  | .error e => some e

theorem fault?_eq_some_iff {x : Except ε α} {e : ε} : fault? x = some e ↔ x = .error e := by
  cases x <;> simp [fault?]

theorem fault?_eq_none_iff {x : Except ε α} : fault? x = none ↔ ∃ a, x = .ok a := by
  cases x <;> simp [fault?]

theorem fault?_map (x : Except ε α) (f : α → β) : fault? (x.map f) = fault? x := by
  cases x <;> rfl

theorem fault?_mapError (x : Except ε α) (f : ε → δ) : fault? (x.mapError f) = (fault? x).map f := by
  cases x <;> rfl

/-- Two computations in a row, of which the second has the same fault whatever the first gives, have the fault of
    the first one that fails. -/
theorem fault?_bind {x : Except ε α} {f : α → Except ε β} {later : Option ε}
    (next : ∀ a, x = .ok a → fault? (f a) = later) : fault? (x >>= f) = (fault? x).or later := by
  cases x with
  | error e => rfl
  | ok a => exact next a rfl

theorem fault?_bind_pure (x : Except ε α) (f : α → β) : fault? (x >>= fun a => pure (f a)) = fault? x := by
  cases x <;> rfl

/-- Two computations in a row, of which the second does not depend on the first, have the fault of the first
    one that fails. -/
theorem fault?_both {γ : Type} (x : Except ε α) (y : Except ε β) (f : α → β → γ) :
    fault? (x >>= fun a => y >>= fun b => pure (f a b)) = (fault? x).or (fault? y) :=
  fault?_bind fun a _ => fault?_bind_pure y (f a)

theorem map_ok_eq (a : α) (f : α → β) : (Except.ok a : Except ε α).map f = .ok (f a) := rfl

theorem map_bind_eq {γ : Type} (x : Except ε α) (f : α → β) (g : β → Except ε γ) :
    (x.map f >>= g) = x >>= fun a => g (f a) := by
  cases x <;> rfl

theorem bind_map_eq {γ : Type} (x : Except ε α) (f : α → Except ε β) (g : β → γ) :
    (x >>= f).map g = x >>= fun a => (f a).map g := by
  cases x <;> rfl

theorem mapError_map_eq (x : Except ε α) (f : α → β) (g : ε → δ) : (x.map f).mapError g = (x.mapError g).map f := by
  cases x <;> rfl

theorem exists_forall₂ {R : α → β → Prop} {as : List α} (each : ∀ a ∈ as, ∃ b, R a b) : ∃ bs, List.Forall₂ R as bs := by
  induction as with
  | nil => exact ⟨[], .nil⟩
  | cons a as ih =>
    obtain ⟨⟨b, related⟩, others⟩ := List.forall_mem_cons.mp each
    obtain ⟨bs, later⟩ := ih others
    exact ⟨b :: bs, .cons related later⟩

theorem exists_left_of_forall₂ {R : α → β → Prop} {as : List α} {bs : List β} (each : List.Forall₂ R as bs) {b : β}
    (member : b ∈ bs) : ∃ a ∈ as, R a b := by
  induction each with
  | nil => simp at member
  | cons related _ ih =>
    rcases List.mem_cons.mp member with here | later
    · subst here
      exact ⟨_, List.mem_cons_self, related⟩
    · obtain ⟨a, inside, relatedLater⟩ := ih later
      exact ⟨a, List.mem_cons_of_mem _ inside, relatedLater⟩

theorem head_of_forall₂ {R : α → β → Prop} {as : List α} {b : β} {bs : List β} (each : List.Forall₂ R as (b :: bs))
    (nonempty : as ≠ []) : R (as.head nonempty) b := by
  cases each with
  | cons related _ => exact related

theorem forall₂_getElem? {R : α → β → Prop} {as : List α} {bs : List β} (each : List.Forall₂ R as bs) {i : Nat}
    {a : α} {b : β} (left : as[i]? = some a) (right : bs[i]? = some b) : R a b := by
  obtain ⟨inside, rfl⟩ := List.getElem?_eq_some_iff.mp left
  obtain ⟨insideRight, rfl⟩ := List.getElem?_eq_some_iff.mp right
  exact each.get inside insideRight

theorem map_eq_of_forall₂ {γ : Type} {R : α → β → Prop} {f : α → γ} {g : β → γ} {as : List α} {bs : List β}
    (each : List.Forall₂ R as bs) (same : ∀ a b, R a b → g b = f a) : bs.map g = as.map f := by
  induction each with
  | nil => rfl
  | cons related _ ih => rw [List.map_cons, List.map_cons, ih, same _ _ related]

theorem mem_of_find?_entry {name : String} {e : String × α} {entries : List (String × α)}
    (found : entries.find? (fun e => e.1 = name) = some e) : (name, e.2) ∈ entries := by
  have sameName : e.1 = name := by simpa using List.find?_some found
  rw [← sameName]
  exact List.mem_of_find?_eq_some found

theorem find?_entry_of_mem {name : String} {value : α} {entries : List (String × α)}
    (distinct : (entries.map Prod.fst).Nodup) (member : (name, value) ∈ entries) :
    entries.find? (fun e => e.1 = name) = some (name, value) := by
  induction entries with
  | nil => simp at member
  | cons e rest ih =>
    rw [List.map_cons, List.nodup_cons] at distinct
    rcases List.mem_cons.mp member with same | later
    · subst same; simp
    · have other : e.1 ≠ name := fun same => distinct.1 (same ▸ List.mem_map_of_mem later)
      simpa [List.find?_cons, other] using ih distinct.2 later

theorem traverseEntries_ok_iff {f : String → α → Except ε β} {entries : List (String × α)}
    {result : List (String × β)} :
    traverseEntries f entries = .ok result ↔
      List.Forall₂ (fun e r => r.1 = e.1 ∧ f e.1 e.2 = .ok r.2) entries result := by
  induction entries generalizing result with
  | nil => simp [traverseEntries, eq_comm]
  | cons e rest ih =>
    obtain ⟨name, value⟩ := e
    simp only [traverseEntries, bind_eq_ok_iff, pure_eq_ok, Except.ok.injEq]
    constructor
    · rintro ⟨b, made, bs, later, rfl⟩
      exact .cons ⟨rfl, made⟩ (ih.mp later)
    · rintro (_ | ⟨⟨sameName, made⟩, later⟩)
      rename_i r rs
      obtain ⟨name', b⟩ := r
      cases sameName
      exact ⟨b, made, rs, ih.mpr later, rfl⟩

/-- A function that may fail, with a change of its results, is applied with the same change of all
    results. -/
theorem traverseEntries_map {γ : Type} {f : String → α → Except ε β} {g : String → α → Except ε γ} {h : String → β → γ}
    (each : ∀ name a, g name a = (f name a).map (h name)) (entries : List (String × α)) :
    traverseEntries g entries = (traverseEntries f entries).map (List.map fun e => (e.1, h e.1 e.2)) := by
  induction entries with
  | nil => rfl
  | cons e rest ih =>
    obtain ⟨name, value⟩ := e
    rw [traverseEntries, traverseEntries, ih, each]
    cases f name value with
    | error fault => rfl
    | ok b => cases traverseEntries f rest <;> rfl

theorem traverseEntries_mapNamed {γ : Type} (k : String → α → β) (g : String → β → Except ε γ)
    (entries : List (String × α)) :
    traverseEntries g (entries.map fun e => (e.1, k e.1 e.2)) =
      traverseEntries (fun name a => g name (k name a)) entries := by
  induction entries with
  | nil => rfl
  | cons e rest ih => rw [List.map_cons, traverseEntries, traverseEntries, ih]

end

/-! ### Faults in the order of their checks -/

section
variable {ε δ α β : Type}

/-- A fault that there is unless a condition holds. -/
def faultUnless (c : Prop) [Decidable c] (fault : ε) : List ε := if c then [] else [fault]

theorem faultUnless_eq_nil_iff {c : Prop} [Decidable c] {fault : ε} : faultUnless c fault = [] ↔ c := by
  unfold faultUnless
  split <;> simp [*]

theorem fault?_mapError_eq {x : Except ε α} {faults : List ε} (known : fault? x = faults.head?) (f : ε → δ) :
    fault? (x.mapError f) = (faults.map f).head? := by
  rw [fault?_mapError, known, List.head?_map]

/-- A function that fails with the first of some faults of each entry is applied to all entries, or fails with the
    first of the faults of all. -/
theorem fault?_traverseEntries {f : String → α → Except ε β} {faults : String × α → List ε}
    {entries : List (String × α)} (each : ∀ e ∈ entries, fault? (f e.1 e.2) = (faults e).head?) :
    fault? (traverseEntries f entries) = (entries.flatMap faults).head? := by
  induction entries with
  | nil => rfl
  | cons e rest ih =>
    obtain ⟨here, others⟩ := List.forall_mem_cons.mp each
    rw [traverseEntries, fault?_both, here, ih others, List.flatMap_cons, List.head?_append]

end

/-! ### Related options -/

section
variable {α β γ : Type} {R : α → β → Prop} {x : Option α} {y : Option β}

theorem exists_of_rel {a : α} (related : Option.Rel R (some a) y) : ∃ b, y = some b ∧ R a b := by
  cases related with
  | some here => exact ⟨_, rfl, here⟩

theorem rel_symm {Q : β → α → Prop} (turn : ∀ a b, R a b → Q b a) (related : Option.Rel R x y) : Option.Rel Q y x := by
  cases related with
  | some here => exact .some (turn _ _ here)
  | none => exact .none

theorem rel_trans {S : β → γ → Prop} {Q : α → γ → Prop} (compose : ∀ a b c, R a b → S b c → Q a c) {z : Option γ}
    (first : Option.Rel R x y) (second : Option.Rel S y z) : Option.Rel Q x z := by
  cases first with
  | some here =>
    cases second with
    | some there => exact .some (compose _ _ _ here there)
  | none =>
    cases second with
    | none => exact .none

theorem rel_or {later : Option α} {laterToo : Option β} (first : Option.Rel R x y)
    (second : Option.Rel R later laterToo) : Option.Rel R (x.or later) (y.or laterToo) := by
  cases first with
  | some here => exact .some here
  | none => exact second

theorem rel_bind_eq (related : Option.Rel R x y) {f : α → Option γ} {g : β → Option γ}
    (same : ∀ a b, R a b → f a = g b) : x.bind f = y.bind g := by
  cases related with
  | some here => exact same _ _ here
  | none => rfl

end

/-! ### Values with keys -/

section
variable {κ α : Type} [DecidableEq κ]

/-- The values of a list that stand under a key, in order. -/
def valuesFor (key : κ) (es : List (κ × α)) : List α := (es.filter (fun e => e.1 = key)).map Prod.snd

@[simp] theorem valuesFor_nil (key : κ) : valuesFor key ([] : List (κ × α)) = [] := rfl

theorem valuesFor_cons (key : κ) (e : κ × α) (es : List (κ × α)) :
    valuesFor key (e :: es) = if e.1 = key then e.2 :: valuesFor key es else valuesFor key es := by
  unfold valuesFor
  by_cases same : e.1 = key <;> simp [same]

@[simp] theorem valuesFor_append (key : κ) (es later : List (κ × α)) :
    valuesFor key (es ++ later) = valuesFor key es ++ valuesFor key later := by
  simp [valuesFor]

theorem valuesFor_map {β : Type} (f : α → β) (key : κ) (es : List (κ × α)) :
    valuesFor key (es.map fun e => (e.1, f e.2)) = (valuesFor key es).map f := by
  induction es with
  | nil => rfl
  | cons e rest ih =>
    rw [List.map_cons, valuesFor_cons, valuesFor_cons, ih]
    by_cases same : e.1 = key <;> simp [same]

theorem valuesFor_map_same (key : κ) (values : List α) : valuesFor key (values.map fun v => (key, v)) = values := by
  induction values with
  | nil => rfl
  | cons v rest ih => rw [List.map_cons, valuesFor_cons, if_pos rfl, ih]

theorem valuesFor_map_other {key other : κ} (different : other ≠ key) (values : List α) :
    valuesFor key (values.map fun v => (other, v)) = [] := by
  induction values with
  | nil => rfl
  | cons v rest ih => rw [List.map_cons, valuesFor_cons, if_neg different, ih]

theorem length_valuesFor (key : κ) (es : List (κ × α)) : (valuesFor key es).length = (es.map Prod.fst).count key := by
  induction es with
  | nil => rfl
  | cons e rest ih =>
    rw [valuesFor_cons, List.map_cons, List.count_cons, ← ih]
    by_cases same : e.1 = key <;> simp [same]

theorem mem_valuesFor {key : κ} {value : α} {es : List (κ × α)} : value ∈ valuesFor key es ↔ (key, value) ∈ es := by
  unfold valuesFor
  constructor
  · intro member
    obtain ⟨⟨k, v⟩, kept, rfl⟩ := List.mem_map.mp member
    obtain ⟨inside, same⟩ := List.mem_filter.mp kept
    have sameKey : k = key := by simpa using same
    exact sameKey ▸ inside
  · intro member
    exact List.mem_map.mpr ⟨(key, value), List.mem_filter.mpr ⟨member, by simp⟩, rfl⟩

/-- Lists that have the same values under every key are rearrangements of each other. -/
theorem perm_of_valuesFor {es fs : List (κ × α)} (same : ∀ key, valuesFor key es = valuesFor key fs) : es.Perm fs := by
  classical
  have counted : ∀ (gs : List (κ × α)) (key : κ) (value : α),
      gs.count (key, value) = (valuesFor key gs).count value := by
    intro gs key value
    induction gs with
    | nil => rfl
    | cons g gs ih =>
      obtain ⟨k, v⟩ := g
      rw [valuesFor_cons]
      by_cases here : k = key
      · subst here
        simp [List.count_cons, ih]
      · simp [here, ih]
  rw [List.perm_iff_count]
  rintro ⟨key, value⟩
  rw [counted, counted, same]

end

namespace Index
variable {ε α β γ : Type} {index : Index α}

theorem entries_injective : Function.Injective (Index.entries (α := α)) := by
  rintro ⟨entries, _⟩ ⟨others, _⟩ same
  cases same
  rfl

theorem get?_eq_some_iff {name : String} {value : α} :
    index.get? name = some value ↔ (name, value) ∈ index.entries := by
  unfold get?
  constructor
  · intro found
    obtain ⟨e, search, rfl⟩ := Option.map_eq_some_iff.mp found
    exact mem_of_find?_entry search
  · intro member
    rw [find?_entry_of_mem index.nodup member]
    rfl

theorem mem_values {value : α} : value ∈ index.values ↔ ∃ name, index.get? name = some value := by
  unfold values
  constructor
  · intro member
    obtain ⟨⟨name, v⟩, inside, rfl⟩ := List.mem_map.mp member
    exact ⟨name, get?_eq_some_iff.mpr inside⟩
  · rintro ⟨name, found⟩
    exact List.mem_map.mpr ⟨(name, value), get?_eq_some_iff.mp found, rfl⟩

theorem mem_names {name : String} : name ∈ index.names ↔ ∃ value, index.get? name = some value := by
  unfold names
  constructor
  · intro member
    obtain ⟨⟨_, value⟩, inside, rfl⟩ := List.mem_map.mp member
    exact ⟨value, get?_eq_some_iff.mpr inside⟩
  · rintro ⟨value, found⟩
    exact List.mem_map.mpr ⟨(name, value), get?_eq_some_iff.mp found, rfl⟩

theorem get?_eq_none {name : String} (absent : name ∉ index.names) : index.get? name = none :=
  Option.eq_none_iff_forall_ne_some.mpr fun value found => absent (mem_names.mpr ⟨value, found⟩)

theorem get?_map (f : α → β) (name : String) : (index.map f).get? name = (index.get? name).map f := by
  unfold get? map
  simp only
  rw [List.find?_map, Option.map_map, Option.map_map]
  rfl

/-- The index with a function applied to every name and value. -/
def mapNamed (f : String → α → β) (index : Index α) : Index β :=
  ⟨index.entries.map fun e => (e.1, f e.1 e.2), by
    simpa [List.map_map, Function.comp_def] using index.nodup⟩

theorem mapNamed_self (index : Index α) : index.mapNamed (fun _ a => a) = index :=
  entries_injective (List.map_id _)

theorem map_self (index : Index α) : index.map (fun a => a) = index := index.mapNamed_self

theorem mapNamed_mapNamed (f : String → α → β) (g : String → β → γ) (index : Index α) :
    (index.mapNamed f).mapNamed g = index.mapNamed fun name a => g name (f name a) :=
  entries_injective List.map_map

theorem get?_mapNamed (f : String → α → β) (index : Index α) (name : String) :
    (index.mapNamed f).get? name = (index.get? name).map (f name) := by
  unfold get? mapNamed
  simp only
  rw [List.find?_map, Option.map_map, Option.map_map]
  cases found : index.entries.find? fun e => e.1 = name with
  | none => simpa [Function.comp_def] using found
  | some e =>
    have sameName : e.1 = name := by simpa using List.find?_some found
    simp [Function.comp_def, found, sameName]

theorem values_mapNamed (f : String → α → β) (index : Index α) :
    (index.mapNamed f).values = index.entries.map fun e => f e.1 e.2 := by
  rw [values, mapNamed, List.map_map]
  rfl

theorem entries_traverse (f : String → α → Except ε β) (index : Index α) :
    (index.traverse f).map entries = traverseEntries f index.entries := by
  unfold traverse
  split
  · next made => simp [made, Except.map]
  · next failed => simp [failed, Except.map]

theorem fault?_traverse {f : String → α → Except ε β} {faults : String × α → List ε}
    (each : ∀ e ∈ index.entries, fault? (f e.1 e.2) = (faults e).head?) :
    fault? (index.traverse f) = (index.entries.flatMap faults).head? := by
  rw [← fault?_traverseEntries each, ← entries_traverse]
  cases index.traverse f <;> rfl

private theorem eq_of_map_entries {x y : Except ε (Index α)} (same : x.map entries = y.map entries) : x = y := by
  cases x with
  | error e => cases y <;> simp_all [Except.map]
  | ok index =>
    cases y with
    | error e => simp [Except.map] at same
    | ok other => rw [entries_injective (Except.ok.inj same)]

theorem traverse_mapNamed (k : String → α → β) (g : String → β → Except ε γ) (index : Index α) :
    (index.mapNamed k).traverse g = index.traverse fun name a => g name (k name a) := by
  apply eq_of_map_entries
  rw [entries_traverse, entries_traverse]
  exact traverseEntries_mapNamed k g index.entries

theorem traverse_map {f : String → α → Except ε β} {g : String → α → Except ε γ} {h : String → β → γ}
    (each : ∀ name a, g name a = (f name a).map (h name)) (index : Index α) :
    index.traverse g = (index.traverse f).map (mapNamed h) := by
  apply eq_of_map_entries
  have inside : ((index.traverse f).map (mapNamed h)).map entries =
      ((index.traverse f).map entries).map (List.map fun e => (e.1, h e.1 e.2)) := by
    cases index.traverse f <;> rfl
  rw [inside, entries_traverse, entries_traverse, traverseEntries_map each]

theorem traverse_ok_iff {f : String → α → Except ε β} {result : Index β} :
    index.traverse f = .ok result ↔
      List.Forall₂ (fun e r => r.1 = e.1 ∧ f e.1 e.2 = .ok r.2) index.entries result.entries := by
  rw [← traverseEntries_ok_iff]
  unfold traverse
  obtain ⟨entries, distinct⟩ := result
  split
  · next made => simp [made]
  · next failed => simp [failed]

theorem names_of_traverse {f : String → α → Except ε β} {result : Index β} (made : index.traverse f = .ok result) :
    result.names = index.names :=
  map_eq_of_forall₂ (traverse_ok_iff.mp made) fun _ _ here => here.1

/-- Every value of a traversed index comes from the value of the same name. -/
theorem get?_of_traverse {f : String → α → Except ε β} {result : Index β} (made : index.traverse f = .ok result)
    {name : String} {b : β} (found : result.get? name = some b) :
    ∃ a, index.get? name = some a ∧ f name a = .ok b := by
  obtain ⟨⟨key, a⟩, inside, same, given⟩ :=
    exists_left_of_forall₂ (traverse_ok_iff.mp made) (get?_eq_some_iff.mp found)
  simp only at same given
  subst same
  exact ⟨a, get?_eq_some_iff.mpr inside, given⟩

/-- A name that has a value still has one in the traversed index. -/
theorem exists_get?_of_traverse {f : String → α → Except ε β} {result : Index β} (made : index.traverse f = .ok result)
    {name : String} (known : index.contains name = true) : ∃ b, result.get? name = some b := by
  rw [← mem_names, names_of_traverse made, mem_names]
  exact Option.isSome_iff_exists.mp known

/-- A function that succeeds for every value can be applied to the whole index. -/
theorem exists_traverse {f : String → α → Except ε γ}
    (each : ∀ name a, index.get? name = some a → ∃ c, f name a = .ok c) :
    ∃ result, index.traverse f = .ok result := by
  have results : ∀ e ∈ index.entries, ∃ r : String × γ, r.1 = e.1 ∧ f e.1 e.2 = .ok r.2 := by
    intro e member
    obtain ⟨c, made⟩ := each e.1 e.2 (get?_eq_some_iff.mpr member)
    exact ⟨(e.1, c), rfl, made⟩
  obtain ⟨entries, made⟩ := exists_forall₂ results
  have names : entries.map Prod.fst = index.names := map_eq_of_forall₂ made fun _ _ here => here.1
  exact ⟨⟨entries, names ▸ index.nodup⟩, traverse_ok_iff.mpr made⟩

/-- The values of a traversed index are those that the function gives for the values of the same name. -/
theorem get?_traverse_iff {f : String → α → Except ε γ} {result : Index γ} (made : index.traverse f = .ok result)
    {name : String} {c : γ} : result.get? name = some c ↔ ∃ a, index.get? name = some a ∧ f name a = .ok c := by
  refine ⟨get?_of_traverse made, ?_⟩
  rintro ⟨a, found, given⟩
  obtain ⟨d, known⟩ := exists_get?_of_traverse made (Option.isSome_of_eq_some found)
  obtain ⟨b, again, same⟩ := get?_of_traverse made known
  cases found.symm.trans again
  cases given.symm.trans same
  exact known

end Index
end PatchPanel
