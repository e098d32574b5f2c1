import PatchPanel.Proofs.Faults.Wire
import Mathlib.Data.List.Sort

/-!
Where the hops of a wire stand on its path. The path of a wire is read in a direction (`Wire.Oriented`), and its hops
are the places where it stays on one node, from the first to the last (`AreHopsOf`). So both directions have the same
hops, each the other way, or fail alike (`Wire.hops_both_ways`).
-/
namespace PatchPanel

/-! ### Places where a path stays on a node -/

/-- The element at a place of a path lies on one node with the next one. -/
def StaysAt (path : List Element) (i : Nat) : Prop :=
  ∃ a b, path[i]? = some a ∧ path[i + 1]? = some b ∧ a.endpoint.node = b.endpoint.node

/-- A hop enters by the element at a place of a path and leaves by the next one. -/
def Hop.TakenAt (path : List Element) (i : Nat) (h : Hop) : Prop :=
  path[i]? = some h.input ∧ path[i + 1]? = some h.output

/-- Hops are taken at all the places where a path stays on a node, and in their order. -/
def AreHopsOf (path : List Element) (hs : List Hop) : Prop :=
  ∃ places : List Nat, places.Pairwise (· < ·) ∧ (∀ i, i ∈ places ↔ StaysAt path i) ∧
    List.Forall₂ (Hop.TakenAt path) places hs

theorem staysAt_zero {first second : Element} {rest : List Element} :
    StaysAt (first :: second :: rest) 0 ↔ first.endpoint.node = second.endpoint.node := by
  simp [StaysAt]

theorem staysAt_succ {first : Element} {rest : List Element} {i : Nat} :
    StaysAt (first :: rest) (i + 1) ↔ StaysAt rest i := Iff.rfl

/-- What is taken at places of a path is taken one place further on behind one more element. -/
theorem takenAt_succ {first : Element} {rest : List Element} {places : List Nat} {hs : List Hop}
    (taken : List.Forall₂ (Hop.TakenAt rest) places hs) :
    List.Forall₂ (Hop.TakenAt (first :: rest)) (places.map (· + 1)) hs := by
  rw [List.forall₂_map_left_iff]
  exact taken

theorem areHopsOf_hopsOf (path : List Element) : AreHopsOf path (hopsOf path) := by
  induction path with
  | nil => exact ⟨[], .nil, by simp [StaysAt], .nil⟩
  | cons first rest ih =>
    obtain ⟨places, sorted, stays, taken⟩ := ih
    have shifted : (places.map (· + 1)).Pairwise (· < ·) := by
      rw [List.pairwise_map]
      exact sorted.imp Nat.succ_lt_succ
    have behind : ∀ i, i + 1 ∈ places.map (· + 1) ↔ StaysAt (first :: rest) (i + 1) := by
      intro i
      rw [staysAt_succ, ← stays]
      simp
    cases rest with
    | nil => exact ⟨[], .nil, by simp [StaysAt], .nil⟩
    | cons second rest =>
      by_cases same : first.endpoint.node = second.endpoint.node
      · have here : Hop.TakenAt (first :: second :: rest) 0 ⟨first, second⟩ := ⟨rfl, rfl⟩
        rw [hopsOf, if_pos same]
        refine ⟨0 :: places.map (· + 1), ?_, fun i => ?_, .cons here (takenAt_succ taken)⟩
        · exact List.pairwise_cons.mpr ⟨by simp, shifted⟩
        · cases i with
          | zero => simp [staysAt_zero, same]
          | succ i => rw [← behind, List.mem_cons, or_iff_right (Nat.succ_ne_zero i)]
      · rw [hopsOf, if_neg same]
        refine ⟨places.map (· + 1), shifted, fun i => ?_, takenAt_succ taken⟩
        cases i with
        | zero => simp [staysAt_zero, same]
        | succ i => exact behind i

/-- The places and their order leave no choice. -/
theorem AreHopsOf.unique {path : List Element} {hs others : List Hop} (ofPath : AreHopsOf path hs)
    (ofPathToo : AreHopsOf path others) : hs = others := by
  obtain ⟨places, sorted, stays, taken⟩ := ofPath
  obtain ⟨places', sorted', stays', taken'⟩ := ofPathToo
  have distinct : ∀ is : List Nat, is.Pairwise (· < ·) → is.Nodup := fun is sorted => sorted.imp Nat.ne_of_lt
  have perm : places.Perm places' := by
    rw [List.perm_ext_iff_of_nodup (distinct places sorted) (distinct places' sorted')]
    intro i
    rw [stays, stays']
  have antisymm : ∀ i j : Nat, i ∈ places → j ∈ places' → i < j → j < i → i = j := by
    intro i j _ _ less more
    omega
  obtain rfl := perm.eq_of_pairwise antisymm sorted sorted'
  have determined : Relator.RightUnique (Hop.TakenAt path) := by
    rintro i ⟨input, output⟩ ⟨input', output'⟩ ⟨first, second⟩ ⟨first', second'⟩
    obtain rfl := Option.some.inj (first.symm.trans first')
    obtain rfl := Option.some.inj (second.symm.trans second')
    rfl
  exact List.right_unique_forall₂' determined taken taken'

theorem areHopsOf_iff {path : List Element} {hs : List Hop} : AreHopsOf path hs ↔ hopsOf path = hs := by
  constructor
  · exact (areHopsOf_hopsOf path).unique
  · rintro rfl
    exact areHopsOf_hopsOf path

theorem hopsOf_eq_nil_iff_not_staysAt {path : List Element} : hopsOf path = [] ↔ ∀ i, ¬ StaysAt path i := by
  rw [← areHopsOf_iff]
  constructor
  · rintro ⟨places, _, stays, taken⟩ i
    cases taken
    simp [← stays]
  · intro never
    refine ⟨[], .nil, fun i => ?_, .nil⟩
    simp [never i]

/-- A path on one node has a hop between every two neighbours. -/
theorem length_hopsOf_of_oneNode {path : List Element}
    (oneNode : ∀ a ∈ path, ∀ b ∈ path, a.endpoint.node = b.endpoint.node) :
    (hopsOf path).length = path.length - 1 := by
  induction path with
  | nil => rfl
  | cons first rest ih =>
    cases rest with
    | nil => rfl
    | cons second rest =>
      have same : first.endpoint.node = second.endpoint.node := oneNode first (by simp) second (by simp)
      have later := ih fun a inside b insideToo => oneNode a (by simp [inside]) b (by simp [insideToo])
      rw [hopsOf, if_pos same, List.length_cons, later]
      simp

/-- An element between two others of its node ends one hop and begins the next. -/
theorem infix_hopsOf {path : List Element} {a b c : Element} (inside : [a, b, c] <:+: path)
    (into : a.endpoint.node = b.endpoint.node) (out : b.endpoint.node = c.endpoint.node) :
    [⟨a, b⟩, ⟨b, c⟩] <:+: hopsOf path := by
  obtain ⟨before, later, rfl⟩ := inside
  have middle : hopsOf (a :: b :: c :: later) = ⟨a, b⟩ :: ⟨b, c⟩ :: hopsOf (c :: later) := by
    simp only [hopsOf, if_pos into, if_pos out]
  have whole : before ++ [a, b, c] ++ later = before ++ a :: b :: c :: later := by simp
  refine ⟨hopsOf (before ++ [a]), hopsOf (c :: later), ?_⟩
  rw [whole, hopsOf_append_cons before a (b :: c :: later), middle]
  simp

/-! ### The path in a direction -/

/-- A direction leads from a port that faces the one host to a port that faces the other. -/
def Direction.Leads (direction : Direction) (a z : Port) : Prop :=
  match direction with
  | .toDut => a.isHostEdge = true ∧ z.isDutEdge = true
  | .toHost => a.isDutEdge = true ∧ z.isHostEdge = true

namespace Wire
variable {w : Wire}

/-- The ports at the two ends of a path. -/
def HasEnds (path : List Element) (a z : BoundPort) : Prop :=
  ∃ head last, path.head? = some head ∧ path.getLast? = some last ∧ head.bound = some a ∧ last.bound = some z

theorem hasEnds_reverse {path : List Element} {a z : BoundPort} : HasEnds path.reverse a z ↔ HasEnds path z a := by
  unfold HasEnds
  rw [List.head?_reverse, List.getLast?_reverse]
  constructor
  · rintro ⟨head, last, first, final, boundHead, boundLast⟩
    exact ⟨last, head, final, first, boundLast, boundHead⟩
  · rintro ⟨head, last, first, final, boundHead, boundLast⟩
    exact ⟨last, head, final, first, boundLast, boundHead⟩

/-- The path of a wire as it is read in a direction. An exclusive wire is read as it is written, and backwards on the
    way back. A shared wire is read from the end that faces the one host to the end that faces the other. -/
def Oriented (w : Wire) (direction : Direction) (path : List Element) : Prop :=
  match w.mode, direction with
  | .exclusive, .toDut => path = w.path
  | .exclusive, .toHost => path = w.path.reverse
  | .shared, direction =>
    (path = w.path ∨ path = w.path.reverse) ∧ ∃ a z, HasEnds path a z ∧ direction.Leads a.port z.port

/-- A shared wire starts at the test host where its path as it is written leads to the host under test, and does not
    where the path read backwards leads there. -/
theorem startsAtHost_iff_leads {starts : Bool} :
    w.startsAtHost = .ok starts ↔ ∃ a z, HasEnds (w.readPath !starts) a z ∧ Direction.toDut.Leads a.port z.port := by
  rw [startsAtHost_ok_iff]
  cases starts with
  | true =>
    constructor
    · rintro ⟨head, last, a, z, first, final, boundHead, boundLast, facing⟩
      exact ⟨a, z, ⟨head, last, first, final, boundHead, boundLast⟩, facing⟩
    · rintro ⟨a, z, ⟨head, last, first, final, boundHead, boundLast⟩, facing⟩
      exact ⟨head, last, a, z, first, final, boundHead, boundLast, facing⟩
  | false =>
    constructor
    · rintro ⟨head, last, a, z, first, final, boundHead, boundLast, facing⟩
      exact ⟨z, a, hasEnds_reverse.mpr ⟨head, last, first, final, boundHead, boundLast⟩, facing⟩
    · rintro ⟨z, a, ends, facing⟩
      obtain ⟨head, last, first, final, boundHead, boundLast⟩ := hasEnds_reverse.mp ends
      exact ⟨head, last, a, z, first, final, boundHead, boundLast, facing⟩

/-- What leads there leads back when it is read backwards. -/
theorem leads_back {reversed : Bool} :
    (∃ a z, HasEnds (w.readPath !reversed) a z ∧ Direction.toDut.Leads a.port z.port) ↔
      ∃ a z, HasEnds (w.readPath reversed) a z ∧ Direction.toHost.Leads a.port z.port := by
  have turned : ∀ a z, HasEnds (w.readPath !reversed) a z ↔ HasEnds (w.readPath reversed) z a := by
    intro a z
    cases reversed with
    | false => exact hasEnds_reverse
    | true => exact hasEnds_reverse.symm
  constructor
  · rintro ⟨a, z, ends, host, dut⟩
    exact ⟨z, a, (turned a z).mp ends, dut, host⟩
  · rintro ⟨a, z, ends, dut, host⟩
    exact ⟨z, a, (turned z a).mpr ends, host, dut⟩

theorem isReversed_shared_iff (shared : w.mode = .shared) {direction : Direction} {reversed : Bool} :
    w.isReversed direction = .ok reversed ↔
      ∃ a z, HasEnds (w.readPath reversed) a z ∧ direction.Leads a.port z.port := by
  cases direction with
  | toDut =>
    have sense : w.isReversed .toDut = .ok reversed ↔ w.startsAtHost = .ok !reversed := by
      simp only [isReversed, shared]
      cases w.startsAtHost <;> simp [Except.map, Bool.not_eq_eq_eq_not]
    rw [sense, startsAtHost_iff_leads, Bool.not_not]
  | toHost =>
    have sense : w.isReversed .toHost = w.startsAtHost := by simp only [isReversed, shared]
    rw [sense, startsAtHost_iff_leads, leads_back]

/-- The path in a direction is the one that is read for the hops. -/
theorem oriented_iff {direction : Direction} {path : List Element} :
    w.Oriented direction path ↔ ∃ reversed, w.isReversed direction = .ok reversed ∧ w.readPath reversed = path := by
  cases mode : w.mode with
  | exclusive => cases direction <;> simp [Oriented, isReversed, mode, readPath, eq_comm]
  | shared =>
    simp only [Oriented, mode, isReversed_shared_iff mode]
    constructor
    · rintro ⟨rfl | rfl, leads⟩
      · exact ⟨false, leads, rfl⟩
      · exact ⟨true, leads, rfl⟩
    · rintro ⟨reversed, leads, rfl⟩
      cases reversed with
      | false => exact ⟨.inl rfl, leads⟩
      | true => exact ⟨.inr rfl, leads⟩

/-! ### Both directions -/

/-- The hops of a wire in a direction are those of a path. Where the whole path lies on one node, there is one less than
    it has elements; an element between two others of its node ends one hop and begins the next; and there is nothing
    to report but that the path has no hop. -/
structure Follows (w : Wire) (direction : Direction) (path : List Element) : Prop where
  hops : ∀ hs, w.hops direction = .ok hs ↔ AreHopsOf path hs ∧ hs ≠ []
  oneNode : (∀ a ∈ path, ∀ b ∈ path, a.endpoint.node = b.endpoint.node) → 2 ≤ path.length →
    ∃ hs, w.hops direction = .ok hs ∧ hs.length = path.length - 1
  between : ∀ a b c, [a, b, c] <:+: path → a.endpoint.node = b.endpoint.node → b.endpoint.node = c.endpoint.node →
    ∃ hs, w.hops direction = .ok hs ∧ [⟨a, b⟩, ⟨b, c⟩] <:+: hs
  fault : ∀ fault, w.hops direction = .error fault ↔ fault = w.noHops ∧ ∀ i, ¬ StaysAt path i

theorem follows_of_oriented {direction : Direction} {path : List Element} (oriented : w.Oriented direction path) :
    w.Follows direction path := by
  obtain ⟨reversed, side, rfl⟩ := oriented_iff.mp oriented
  have taken : w.hops direction =
      if hopsOf (w.readPath reversed) = [] then .error w.noHops else .ok (hopsOf (w.readPath reversed)) := by
    rw [hops_eq, side]
    rfl
  have found : hopsOf (w.readPath reversed) ≠ [] → w.hops direction = .ok (hopsOf (w.readPath reversed)) := by
    intro some
    rw [taken, if_neg some]
  refine ⟨fun hs => ?_, fun oneNode long => ?_, fun a b c inside into out => ?_, fun fault => ?_⟩
  · rw [taken, areHopsOf_iff]
    by_cases none : hopsOf (w.readPath reversed) = []
    · rw [if_pos none, none]
      constructor
      · rintro ⟨⟩
      · rintro ⟨rfl, some⟩
        exact absurd rfl some
    · rw [if_neg none, Except.ok.injEq]
      constructor
      · rintro rfl
        exact ⟨rfl, none⟩
      · exact And.left
  · have count := length_hopsOf_of_oneNode oneNode
    refine ⟨_, found fun none => ?_, count⟩
    rw [none, List.length_nil] at count
    omega
  · have inner := infix_hopsOf inside into out
    refine ⟨_, found fun none => ?_, inner⟩
    rw [none] at inner
    cases List.eq_nil_of_infix_nil inner
  · rw [taken, ← hopsOf_eq_nil_iff_not_staysAt]
    by_cases none : hopsOf (w.readPath reversed) = []
    · simp [none, eq_comm]
    · simp [none]

/-- Where no path can be read, something is wrong with the ends of a shared wire. -/
theorem hops_of_not_oriented {direction : Direction} (unread : ¬ ∃ path, w.Oriented direction path) :
    w.mode = .shared ∧ ∃ fault, w.edgeFaults.head? = some fault ∧ w.hops direction = .error fault := by
  have failed : ∀ reversed, w.isReversed direction ≠ .ok reversed := fun reversed side =>
    unread ⟨_, oriented_iff.mpr ⟨reversed, side, rfl⟩⟩
  cases mode : w.mode with
  | exclusive =>
    refine absurd ?_ (failed (decide (direction = .toHost)))
    cases direction <;> simp [isReversed, mode]
  | shared =>
    refine ⟨rfl, ?_⟩
    cases side : w.isReversed direction with
    | ok reversed => exact absurd side (failed reversed)
    | error fault =>
      have ends : w.startsAtHost = .error fault := by
        cases direction with
        | toDut =>
          simp only [isReversed, mode] at side
          cases starts : w.startsAtHost with
          | ok b => rw [starts] at side; cases side
          | error e => rw [starts] at side; cases side; rfl
        | toHost => simpa only [isReversed, mode] using side
      refine ⟨fault, ?_, ?_⟩
      · rw [← fault?_startsAtHost, ends]
        rfl
      · rw [hops_eq, side]
        rfl

/-- The hops of a wire in one direction are those in the other, from the last to the first and each the other way, and
    where there are none in one direction, there are none in the other, for the same reason. In a direction in which
    the path can be read, the hops are the places where it stays on one node, in their order. Otherwise the wire is
    shared, and what is wrong with the ends of its path is reported. -/
theorem hops_both_ways (w : Wire) :
    (∀ hs, w.hops .toDut = .ok hs ↔ w.hops .toHost = .ok (hs.reverse.map Hop.flip)) ∧
    (∀ hs, w.hops .toHost = .ok hs ↔ w.hops .toDut = .ok (hs.reverse.map Hop.flip)) ∧
    (∀ fault, w.hops .toDut = .error fault ↔ w.hops .toHost = .error fault) ∧
    ∀ direction, (∀ path, w.Oriented direction path → w.Follows direction path) ∧
      ((¬ ∃ path, w.Oriented direction path) →
        w.mode = .shared ∧ ∃ fault, w.edgeFaults.head? = some fault ∧ w.hops direction = .error fault) := by
  have twice : ∀ hs : List Hop, (hs.reverse.map Hop.flip).reverse.map Hop.flip = hs := by
    intro hs
    simp [Function.comp_def]
  refine ⟨fun hs => ?_, fun hs => ?_, fun fault => ?_, fun direction => ?_⟩
  · rw [hops_toHost, map_eq_ok_iff]
    constructor
    · exact fun found => ⟨hs, found, rfl⟩
    · rintro ⟨others, found, same⟩
      rw [found, ← twice others, same, twice]
  · rw [hops_toHost, map_eq_ok_iff]
    constructor
    · rintro ⟨others, found, rfl⟩
      rw [found, twice]
    · exact fun found => ⟨_, found, twice hs⟩
  · rw [hops_toHost]
    cases w.hops .toDut <;> simp [Except.map]
  · exact ⟨fun path => follows_of_oriented, hops_of_not_oriented⟩

/-- The shared wire over two switches with one more port of the second on its path. -/
def longWire : Wire :=
  { trunkWire with path :=
      [.free ⟨"s2", "p2"⟩, .free ⟨"s2", "p3"⟩, .free ⟨"s2", "p1"⟩, .free ⟨"s1", "p2"⟩, .free ⟨"s1", "p1"⟩] }

/-- The path is written from the host under test, so it is read backwards on the way there. The port between two others
    of `s2` ends one hop and begins the next, whether it is there or not. -/
theorem hops_both_ways_long :
    (longWire.lay trunkTopology).Oriented .toDut (longWire.lay trunkTopology).path.reverse ∧
    ∃ hs, (longWire.lay trunkTopology).hops .toDut = .ok hs ∧
      (longWire.lay trunkTopology).hops .toHost = .ok (hs.reverse.map Hop.flip) ∧
      AreHopsOf (longWire.lay trunkTopology).path.reverse hs ∧
      hs.map (fun h => (h.node, h.input.endpoint.port, h.output.endpoint.port)) =
        [("s1", "p1", "p2"), ("s2", "p1", "p3"), ("s2", "p3", "p2")] := by
  have oriented : (longWire.lay trunkTopology).Oriented .toDut (longWire.lay trunkTopology).path.reverse :=
    oriented_iff.mpr ⟨true, rfl, rfl⟩
  obtain ⟨forth, _, _, each⟩ := hops_both_ways (longWire.lay trunkTopology)
  obtain ⟨hs, found⟩ : ∃ hs, (longWire.lay trunkTopology).hops .toDut = .ok hs := ⟨_, rfl⟩
  have follows := (each .toDut).1 _ oriented
  refine ⟨oriented, hs, found, (forth hs).mp found, ((follows.hops hs).mp found).1, ?_⟩
  cases found
  rfl

end Wire
end PatchPanel
