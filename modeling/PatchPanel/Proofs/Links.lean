import PatchPanel.Link
import PatchPanel.Proofs.Index
import Mathlib.Data.List.Pairwise

/-!
What a link table finds. The position of an endpoint is that of the first link that has it as an end
(`LinkTable.position_ofLinks`), so the table leads to the far end of this link, as a search through all links
does (`LinkTable.farEnd?_search`). Whatever keeps the first link of each endpoint, up to an exchange of its
ends, keeps all far ends (`SameFirstLinks.farEnd?_eq`).
-/
namespace PatchPanel
namespace Link

/-- The link has the endpoint as one of its ends. -/
def has (l : Link) (e : Endpoint) : Bool := e = l.first || e = l.second

/-- The link with its ends exchanged. -/
def turned (l : Link) : Link := ⟨l.second, l.first⟩

@[simp] theorem turned_turned (l : Link) : l.turned.turned = l := rfl

theorem has_turned (l : Link) (e : Endpoint) : l.turned.has e = l.has e := Bool.or_comm _ _

theorem farEnd?_turned (l : Link) (e : Endpoint) : l.turned.farEnd? e = l.farEnd? e := by
  by_cases atFirst : e = l.first <;> by_cases atSecond : e = l.second <;>
    simp_all [farEnd?, turned]

theorem has_iff {l : Link} {e : Endpoint} : l.has e = true ↔ e = l.first ∨ e = l.second := by
  rw [has, Bool.or_eq_true, decide_eq_true_eq, decide_eq_true_eq]

/-- A link leads from one of its ends to the other one, and from nowhere else. -/
theorem farEnd?_eq_some_iff {l : Link} {e far : Endpoint} : l.farEnd? e = some far ↔ l = ⟨e, far⟩ ∨ l = ⟨far, e⟩ := by
  obtain ⟨first, second⟩ := l
  unfold farEnd?
  simp only [mk.injEq]
  constructor
  · intro leads
    split at leads
    · next atFirst => exact .inl ⟨atFirst.symm, Option.some.inj leads⟩
    · split at leads
      · next atSecond => exact .inr ⟨Option.some.inj leads, atSecond.symm⟩
      · cases leads
  · rintro (⟨rfl, rfl⟩ | ⟨rfl, rfl⟩)
    · rw [if_pos rfl]
    · by_cases loop : second = first
      · rw [if_pos loop, loop]
      · rw [if_neg loop, if_pos rfl]

/-- An end of a link has a far end. -/
theorem exists_farEnd? {l : Link} {e : Endpoint} (ofLink : l.has e = true) : ∃ far, l.farEnd? e = some far := by
  rcases has_iff.mp ofLink with rfl | rfl
  · exact ⟨l.second, farEnd?_eq_some_iff.mpr (.inl rfl)⟩
  · exact ⟨l.first, farEnd?_eq_some_iff.mpr (.inr rfl)⟩

theorem has_of_farEnd? {l : Link} {e far : Endpoint} (leads : l.farEnd? e = some far) :
    l.has e = true ∧ l.has far = true := by
  rcases farEnd?_eq_some_iff.mp leads with rfl | rfl
  · exact ⟨has_iff.mpr (.inl rfl), has_iff.mpr (.inr rfl)⟩
  · exact ⟨has_iff.mpr (.inr rfl), has_iff.mpr (.inl rfl)⟩

/-- The way along a link and back ends where it began. -/
theorem farEnd?_farEnd? {l : Link} {e far : Endpoint} (leads : l.farEnd? e = some far) : l.farEnd? far = some e :=
  farEnd?_eq_some_iff.mpr (farEnd?_eq_some_iff.mp leads).symm

/-- Links are the same when they have the same two ends. -/
def SameEnds (l m : Link) : Prop := m = l ∨ m = l.turned

namespace SameEnds
variable {l m n : Link}

theorem symm (same : l.SameEnds m) : m.SameEnds l := by
  rcases same with rfl | rfl
  · exact .inl rfl
  · exact .inr l.turned_turned

theorem trans (same : l.SameEnds m) (after : m.SameEnds n) : l.SameEnds n := by
  rcases same with rfl | rfl
  · exact after
  · rcases after with rfl | rfl
    · exact .inr rfl
    · exact .inl l.turned_turned

theorem has_eq (same : l.SameEnds m) (e : Endpoint) : m.has e = l.has e := by
  rcases same with rfl | rfl
  · rfl
  · exact l.has_turned e

theorem farEnd?_eq (same : l.SameEnds m) (e : Endpoint) : m.farEnd? e = l.farEnd? e := by
  rcases same with rfl | rfl
  · rfl
  · exact l.farEnd?_turned e

end SameEnds

/-- Links without a common end. -/
def Apart (l m : Link) : Prop :=
  l.first ≠ m.first ∧ l.first ≠ m.second ∧ l.second ≠ m.first ∧ l.second ≠ m.second

instance (l m : Link) : Decidable (l.Apart m) := inferInstanceAs (Decidable (_ ∧ _))

namespace Apart
variable {l m : Link}

instance : Std.Symm Apart :=
  ⟨fun _ _ ⟨first, firstSecond, secondFirst, second⟩ => ⟨first.symm, secondFirst.symm, firstSecond.symm, second.symm⟩⟩

theorem not_has (apart : l.Apart m) {e : Endpoint} (ofFirst : l.has e = true) : ¬ m.has e = true := by
  obtain ⟨first, firstSecond, secondFirst, second⟩ := apart
  simp only [has, Bool.or_eq_true, decide_eq_true_eq] at ofFirst ⊢
  rcases ofFirst with rfl | rfl
  · exact not_or.mpr ⟨first, firstSecond⟩
  · exact not_or.mpr ⟨secondFirst, second⟩

end Apart
end Link

/-- The first link of an endpoint. -/
def firstLink? (links : List Link) (e : Endpoint) : Option Link := links.find? fun l => l.has e

theorem mem_of_firstLink? {links : List Link} {e : Endpoint} {l : Link} (found : firstLink? links e = some l) :
    l ∈ links :=
  List.mem_of_find?_eq_some found

theorem has_of_firstLink? {links : List Link} {e : Endpoint} {l : Link} (found : firstLink? links e = some l) :
    l.has e = true := by
  simpa using List.find?_some found

theorem firstLink?_isSome_iff {links : List Link} {e : Endpoint} :
    (firstLink? links e).isSome = true ↔ ∃ l ∈ links, l.has e = true := by
  rw [firstLink?, List.find?_isSome]

theorem firstLink?_eq_head? (links : List Link) (e : Endpoint) :
    firstLink? links e = (links.filter fun l => l.has e).head? := by
  rw [List.head?_filter, firstLink?]

/-- The first link of an endpoint is the one before which no link has it. -/
theorem firstLink?_eq_some_iff {links : List Link} {e : Endpoint} {l : Link} :
    firstLink? links e = some l ↔ l.has e = true ∧ ∃ before after, links = before ++ l :: after ∧
      ∀ m ∈ before, ¬ m.has e = true := by
  rw [firstLink?, List.find?_eq_some_iff_append]
  simp only [Bool.not_eq_true, Bool.not_eq_true']

/-- Where an endpoint is on one link at most, each link that has it is its first. -/
theorem firstLink?_of_single {links : List Link} {e : Endpoint} (single : (links.filter fun l => l.has e).length ≤ 1)
    {l : Link} (member : l ∈ links) (ofLink : l.has e = true) : firstLink? links e = some l := by
  have kept : l ∈ links.filter fun l => l.has e := List.mem_filter.mpr ⟨member, ofLink⟩
  obtain ⟨only, alone⟩ := List.length_eq_one_iff.mp (Nat.le_antisymm single (List.length_pos_of_mem kept))
  rw [alone, List.mem_singleton] at kept
  rw [firstLink?_eq_head?, alone, List.head?_cons, kept]

/-- An endpoint is on one link at most where no two links have an end in common. -/
theorem length_filter_has_of_apart {links : List Link} (apart : links.Pairwise fun l m => l.Apart m) (e : Endpoint) :
    (links.filter fun l => l.has e).length ≤ 1 := by
  have apartStill := apart.filter fun l => l.has e
  have ofAll : ∀ l ∈ links.filter fun l => l.has e, l.has e = true := fun l member => (List.mem_filter.mp member).2
  generalize (links.filter fun l => l.has e) = kept at apartStill ofAll ⊢
  rcases kept with _ | ⟨first, _ | ⟨second, rest⟩⟩
  · exact Nat.zero_le 1
  · exact Nat.le_refl 1
  · have separate := (List.pairwise_cons.mp apartStill).1 second List.mem_cons_self
    exact absurd (ofAll second (List.mem_cons_of_mem first List.mem_cons_self))
      (separate.not_has (ofAll first List.mem_cons_self))

namespace LinkTable

/-- An endpoint keeps the position that it has. -/
theorem getElem?_insertIfNew (position : Std.TreeMap Endpoint Nat) (k : Endpoint) (i : Nat) (e : Endpoint) :
    (position.insertIfNew k i)[e]? = position[e]?.or (if e = k then some i else none) := by
  simp only [Std.TreeMap.getElem?_insertIfNew, Std.LawfulEqCmp.compare_eq_iff_eq]
  by_cases same : e = k
  · subst same
    by_cases known : e ∈ position
    · simp [known]
    · simp [known]
  · rw [if_neg fun ⟨here, _⟩ => same here.symm, if_neg same, Option.or_none]

theorem getElem?_addLink (position : Std.TreeMap Endpoint Nat) (l : Link) (i : Nat) (e : Endpoint) :
    (addLink position l i)[e]? = position[e]?.or (if l.has e then some i else none) := by
  rw [addLink, getElem?_insertIfNew, getElem?_insertIfNew, Option.or_assoc]
  congr 1
  by_cases atFirst : e = l.first
  · simp [Link.has, atFirst]
  · simp [Link.has, atFirst]

/-- Links that are added behind others, the first of them at position `start`, give a position to the
    endpoints that have none. -/
theorem getElem?_foldl_addLink (position : Std.TreeMap Endpoint Nat) (links : List Link) (start : Nat) (e : Endpoint) :
    ((links.zipIdx start).foldl (fun position l => addLink position l.1 l.2) position)[e]? =
      position[e]?.or ((links.findIdx? fun l => l.has e).map (· + start)) := by
  induction links generalizing position start with
  | nil => simp
  | cons l links ih =>
    rw [List.zipIdx_cons, List.foldl_cons, ih, getElem?_addLink, Option.or_assoc, List.findIdx?_cons]
    congr 1
    by_cases here : l.has e = true
    · simp [here]
    · simp [here, Option.map_map, Function.comp_def, Nat.add_assoc, Nat.add_comm 1]

/-- An endpoint has the position of the first link that has it. -/
theorem position_ofLinks (links : List Link) (e : Endpoint) :
    (ofLinks links).position[e]? = links.findIdx? fun l => l.has e := by
  rw [ofLinks, getElem?_foldl_addLink, Std.TreeMap.getElem?_emptyc, Option.none_or]
  exact Option.map_id'

/-- A table leads to the far end of the first link that has an endpoint. -/
theorem farEnd?_ofLinks (links : List Link) (e : Endpoint) :
    (ofLinks links).farEnd? e = (firstLink? links e).bind fun l => l.farEnd? e := by
  rw [firstLink?, List.find?_eq_bind_findIdx?_getElem?, ← position_ofLinks, Option.bind_assoc]
  rfl

end LinkTable

/-- Links among which the first link of every endpoint is the same, up to an exchange of its ends. -/
def SameFirstLinks (links others : List Link) : Prop :=
  ∀ e, Option.Rel Link.SameEnds (firstLink? links e) (firstLink? others e)

namespace SameFirstLinks
variable {links others : List Link}

theorem farEnd?_eq (same : SameFirstLinks links others) (e : Endpoint) :
    (LinkTable.ofLinks others).farEnd? e = (LinkTable.ofLinks links).farEnd? e := by
  rw [LinkTable.farEnd?_ofLinks, LinkTable.farEnd?_ofLinks]
  exact (rel_bind_eq (same e) fun _ _ ends => (ends.farEnd?_eq e).symm).symm

theorem symm (same : SameFirstLinks links others) : SameFirstLinks others links :=
  fun e => rel_symm (fun _ _ => Link.SameEnds.symm) (same e)

theorem trans {last : List Link} (same : SameFirstLinks links others) (after : SameFirstLinks others last) :
    SameFirstLinks links last :=
  fun e => rel_trans (Q := Link.SameEnds) (fun _ _ _ ends endsToo => ends.trans endsToo) (same e) (after e)

/-- Ends may be exchanged in any links. -/
theorem of_exchanged (exchanged : List.Forall₂ Link.SameEnds links others) : SameFirstLinks links others := by
  intro e
  induction exchanged with
  | nil => exact .none
  | cons ends _ ih =>
    rw [firstLink?, firstLink?, List.find?_cons, List.find?_cons, ends.has_eq e]
    split
    · exact .some ends
    · exact ih

/-- Links may be put in any order where no two of them have an end in common. -/
theorem of_perm (apart : links.Pairwise fun l m => l.Apart m) (order : links.Perm others) :
    SameFirstLinks links others := by
  intro e
  have known : (firstLink? links e).isSome = (firstLink? others e).isSome := by
    rw [Bool.eq_iff_iff, firstLink?_isSome_iff, firstLink?_isSome_iff]
    simp only [order.mem_iff]
  cases here : firstLink? links e with
  | some l =>
    rw [here] at known
    obtain ⟨m, there⟩ := Option.isSome_iff_exists.mp known.symm
    have member := order.mem_iff.mpr (mem_of_firstLink? there)
    have one : m = l := by
      by_contra different
      have separate : m.Apart l := apart.forall member (mem_of_firstLink? here) different
      exact separate.not_has (has_of_firstLink? there) (has_of_firstLink? here)
    rw [there, one]
    exact .some (.inl rfl)
  | none =>
    rw [here, Option.isSome_none, eq_comm, Option.isSome_eq_false_iff, Option.isNone_iff_eq_none] at known
    rw [known]
    exact .none

end SameFirstLinks

namespace LinkTable
variable {links : List Link} {e far : Endpoint}

theorem farEnd?_eq_some_iff : (ofLinks links).farEnd? e = some far ↔
    ∃ l, firstLink? links e = some l ∧ l.farEnd? e = some far := by
  rw [farEnd?_ofLinks, Option.bind_eq_some_iff]

theorem farEnd?_eq_none_iff : (ofLinks links).farEnd? e = none ↔ ∀ l ∈ links, ¬ l.has e = true := by
  rw [farEnd?_ofLinks, Option.bind_eq_none_iff]
  constructor
  · intro nowhere l member ofLink
    obtain ⟨first, found⟩ := Option.isSome_iff_exists.mp (firstLink?_isSome_iff.mpr ⟨l, member, ofLink⟩)
    obtain ⟨far, leads⟩ := Link.exists_farEnd? (has_of_firstLink? found)
    rw [nowhere first found] at leads
    cases leads
  · intro absent l found
    exact absurd (has_of_firstLink? found) (absent l (mem_of_firstLink? found))

/-- The position of an endpoint is that of a link that has it. -/
theorem exists_of_position {i : Nat} (stored : (ofLinks links).position[e]? = some i) :
    ∃ l, links[i]? = some l ∧ l.has e = true := by
  rw [position_ofLinks] at stored
  obtain ⟨inside, ofLink, _⟩ := List.findIdx?_eq_some_iff_getElem.mp stored
  exact ⟨links[i], List.getElem?_eq_getElem inside, ofLink⟩

/-- Only the links that have an endpoint count for it. -/
theorem farEnd?_of_filter {others : List Link}
    (same : (others.filter fun l => l.has e) = links.filter fun l => l.has e) :
    (ofLinks others).farEnd? e = (ofLinks links).farEnd? e := by
  rw [farEnd?_ofLinks, farEnd?_ofLinks, firstLink?_eq_head?, firstLink?_eq_head?, same]

theorem farEnd?_farEnd? (single : (links.filter fun l => l.has far).length ≤ 1)
    (leads : (ofLinks links).farEnd? e = some far) : (ofLinks links).farEnd? far = some e := by
  obtain ⟨l, first, through⟩ := farEnd?_eq_some_iff.mp leads
  have back := firstLink?_of_single single (mem_of_firstLink? first) (Link.has_of_farEnd? through).2
  exact farEnd?_eq_some_iff.mpr ⟨l, back, Link.farEnd?_farEnd? through⟩

/-- A table of links finds what a search through the links finds: the other end of the first link that has the
    endpoint, and nothing exactly if no link has it. The position that it keeps for an endpoint is that of a link
    that has it. What it finds does not change when ends of links are exchanged, nor when links without the
    endpoint are put in, taken out or moved; and where each endpoint is on one link at most, the way there and
    back ends where it began. -/
theorem farEnd?_search (links : List Link) (e : Endpoint) :
    (∀ far, (ofLinks links).farEnd? e = some far ↔ ∃ before l after, links = before ++ l :: after ∧
      (∀ m ∈ before, ¬ (e = m.first ∨ e = m.second)) ∧ (l = ⟨e, far⟩ ∨ l = ⟨far, e⟩)) ∧
    ((ofLinks links).farEnd? e = none ↔ ∀ l ∈ links, ¬ (e = l.first ∨ e = l.second)) ∧
    ((ofLinks links).links = links ∧ ∀ i, (ofLinks links).position[e]? = some i →
      ∃ l, links[i]? = some l ∧ (e = l.first ∨ e = l.second)) ∧
    (∀ others, List.Forall₂ Link.SameEnds links others → (ofLinks others).farEnd? e = (ofLinks links).farEnd? e) ∧
    (∀ others : List Link, (others.filter fun l => l.has e) = (links.filter fun l => l.has e) →
      (ofLinks others).farEnd? e = (ofLinks links).farEnd? e) ∧
    ((∀ one, (links.filter fun l => l.has one).length ≤ 1) →
      ∀ far, (ofLinks links).farEnd? e = some far → (ofLinks links).farEnd? far = some e) := by
  simp only [← Link.has_iff]
  refine ⟨fun far => ?_, farEnd?_eq_none_iff, ⟨rfl, fun i => exists_of_position⟩, fun others exchanged => ?_,
    fun others => farEnd?_of_filter, fun single far => farEnd?_farEnd? (single far)⟩
  · rw [farEnd?_eq_some_iff]
    constructor
    · rintro ⟨l, first, through⟩
      obtain ⟨_, before, after, split, earlier⟩ := firstLink?_eq_some_iff.mp first
      exact ⟨before, l, after, split, earlier, Link.farEnd?_eq_some_iff.mp through⟩
    · rintro ⟨before, l, after, split, earlier, ends⟩
      have through := Link.farEnd?_eq_some_iff.mpr ends
      exact ⟨l, firstLink?_eq_some_iff.mpr ⟨(Link.has_of_farEnd? through).1, before, after, split, earlier⟩, through⟩
  · exact (SameFirstLinks.of_exchanged exchanged).farEnd?_eq e

/-- Two links in a row and a port that is linked to itself. -/
def loopLinks : List Link :=
  [⟨⟨"h", "e"⟩, ⟨"s1", "p1"⟩⟩, ⟨⟨"s1", "p2"⟩, ⟨"s2", "p1"⟩⟩, ⟨⟨"s2", "p3"⟩, ⟨"s2", "p3"⟩⟩]

/-- The way from the second switch to the first one and back, with the link between them turned and with all other
    links taken out. -/
theorem farEnd?_search_loop :
    (ofLinks loopLinks).farEnd? ⟨"s2", "p1"⟩ = some ⟨"s1", "p2"⟩ ∧
      (ofLinks loopLinks).farEnd? ⟨"s1", "p2"⟩ = some ⟨"s2", "p1"⟩ ∧
      (ofLinks loopLinks).farEnd? ⟨"s2", "p3"⟩ = some ⟨"s2", "p3"⟩ ∧
      (ofLinks loopLinks).farEnd? ⟨"s2", "p9"⟩ = none ∧
      (ofLinks (loopLinks.map Link.turned)).farEnd? ⟨"s2", "p1"⟩ = some ⟨"s1", "p2"⟩ ∧
      (ofLinks [⟨⟨"s1", "p2"⟩, ⟨"s2", "p1"⟩⟩]).farEnd? ⟨"s2", "p1"⟩ = some ⟨"s1", "p2"⟩ := by
  have single : ∀ one, (loopLinks.filter fun l => l.has one).length ≤ 1 :=
    length_filter_has_of_apart (by decide)
  obtain ⟨found, _, _, turned, filtered, back⟩ := farEnd?_search loopLinks ⟨"s2", "p1"⟩
  obtain ⟨ofLoop, _⟩ := farEnd?_search loopLinks ⟨"s2", "p3"⟩
  obtain ⟨_, nowhere, _⟩ := farEnd?_search loopLinks ⟨"s2", "p9"⟩
  have there : (ofLinks loopLinks).farEnd? ⟨"s2", "p1"⟩ = some ⟨"s1", "p2"⟩ :=
    (found _).mpr ⟨[_], _, _, rfl, by decide, .inr rfl⟩
  refine ⟨there, back single _ there, (ofLoop _).mpr ⟨[_, _], _, _, rfl, by decide, .inl rfl⟩,
    nowhere.mpr (by decide), ?_, ?_⟩
  · rw [turned (loopLinks.map Link.turned) ?_, there]
    exact List.forall₂_map_right_iff.mpr (List.forall₂_same.mpr fun l _ => .inr rfl)
  · rw [filtered _ (by decide), there]

end LinkTable
end PatchPanel
