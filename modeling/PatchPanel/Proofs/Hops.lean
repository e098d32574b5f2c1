import PatchPanel.Wiring.Hop
import PatchPanel.Proofs.Index

/-!
The hops of a path and of the path read backwards. Reversing a path reverses its hops and exchanges
the input and the output of each (`hopsOf_reverse`), so both directions of a wire have the same hops,
and they fail together (`hops_toHost`).
-/
namespace PatchPanel

theorem Port.isHostEdge_of_isDutEdge {p : Port} (dut : p.isDutEdge = true) : p.isHostEdge = false := by
  unfold isDutEdge at dut
  unfold isHostEdge
  split at dut
  · next role => rw [role]
  · cases dut

theorem Element.require_ok_iff {e : Element} {b : BoundPort} : e.require = .ok b ↔ e.bound = some b := by
  unfold require
  cases e.bound <;> simp

/-- The hop of the other direction. -/
def Hop.flip (h : Hop) : Hop := ⟨h.output, h.input⟩

/-- The number of the port by which the hop enters its node. -/
def Hop.inNumber? (h : Hop) : Option UInt32 := h.input.bound.map (·.port.number)

@[simp] theorem Hop.flip_flip (h : Hop) : h.flip.flip = h := rfl

/-- The hops up to an element of a path, and then those from it on. -/
theorem hopsOf_append_cons (before : List Element) (a : Element) (later : List Element) :
    hopsOf (before ++ a :: later) = hopsOf (before ++ [a]) ++ hopsOf (a :: later) := by
  induction before with
  | nil => rfl
  | cons first rest ih =>
    cases rest with
    | nil => by_cases same : first.endpoint.node = a.endpoint.node <;> simp [hopsOf, same]
    | cons second rest =>
      simp only [List.cons_append] at ih ⊢
      simp only [hopsOf] at ih ⊢
      by_cases same : first.endpoint.node = second.endpoint.node
      · rw [if_pos same, if_pos same, ih, List.cons_append]
      · rw [if_neg same, if_neg same, ih]

/-- The hops of a path read backwards: the same hops from the last to the first, each the other way. -/
theorem hopsOf_reverse (path : List Element) : hopsOf path.reverse = (hopsOf path).reverse.map Hop.flip := by
  induction path with
  | nil => rfl
  | cons first rest ih =>
    cases rest with
    | nil => rfl
    | cons second rest =>
      have backwards : (first :: second :: rest).reverse = rest.reverse ++ [second, first] := by simp
      have shorter : rest.reverse ++ [second] = (second :: rest).reverse := by simp
      rw [backwards, hopsOf_append_cons, shorter, ih]
      by_cases same : first.endpoint.node = second.endpoint.node
      · simp [hopsOf, same, Hop.flip]
      · have other : ¬ second.endpoint.node = first.endpoint.node := fun equal => same equal.symm
        simp [hopsOf, same, other]

/-- Both ends of a hop are on the path and on one node. -/
theorem mem_hopsOf {path : List Element} {h : Hop} (member : h ∈ hopsOf path) :
    h.input ∈ path ∧ h.output ∈ path ∧ h.input.endpoint.node = h.output.endpoint.node := by
  induction path with
  | nil => simp [hopsOf] at member
  | cons first rest ih =>
    cases rest with
    | nil => simp [hopsOf] at member
    | cons second rest =>
      have later : h ∈ hopsOf (second :: rest) →
          h.input ∈ first :: second :: rest ∧ h.output ∈ first :: second :: rest ∧
            h.input.endpoint.node = h.output.endpoint.node := by
        intro inRest
        obtain ⟨input, output, node⟩ := ih inRest
        exact ⟨List.mem_cons_of_mem _ input, List.mem_cons_of_mem _ output, node⟩
      simp only [hopsOf] at member
      by_cases same : first.endpoint.node = second.endpoint.node
      · rw [if_pos same] at member
        rcases List.mem_cons.mp member with here | inRest
        · subst here
          exact ⟨by simp, by simp, same⟩
        · exact later inRest
      · rw [if_neg same] at member
        exact later member

namespace Wire

theorem pathEnds_ok_iff {w : Wire} {ends : Element × Element} :
    w.pathEnds = .ok ends ↔ w.path.head? = some ends.1 ∧ w.path.getLast? = some ends.2 := by
  unfold pathEnds
  obtain ⟨head, last⟩ := ends
  cases w.path.head? <;> cases w.path.getLast? <;> simp

/-- The end that the path is read from is a host edge, and the other end is a DUT edge. -/
theorem startsAtHost_ok_iff {w : Wire} {starts : Bool} :
    w.startsAtHost = .ok starts ↔ ∃ head last a z, w.path.head? = some head ∧ w.path.getLast? = some last ∧
      head.bound = some a ∧ last.bound = some z ∧
      (bif starts then a else z).port.isHostEdge = true ∧ (bif starts then z else a).port.isDutEdge = true := by
  simp only [startsAtHost, bind_eq_ok_iff, pathEnds_ok_iff, Element.require_ok_iff, Bool.and_eq_true]
  constructor
  · rintro ⟨⟨head, last⟩, ⟨first, final⟩, a, boundHead, z, boundLast, decided⟩
    refine ⟨head, last, a, z, first, final, boundHead, boundLast, ?_⟩
    split at decided
    · next forth =>
      cases decided
      exact forth
    · split at decided
      · next back =>
        cases decided
        exact ⟨back.2, back.1⟩
      · cases decided
  · rintro ⟨head, last, a, z, first, final, boundHead, boundLast, host, dut⟩
    refine ⟨(head, last), ⟨first, final⟩, a, boundHead, z, boundLast, ?_⟩
    cases starts with
    | true =>
      simp only [cond_true] at host dut
      rw [if_pos ⟨host, dut⟩]
    | false =>
      simp only [cond_false] at host dut
      simp [Port.isHostEdge_of_isDutEdge dut, host, dut]

theorem exists_hostEdge {w : Wire} {starts : Bool} (side : w.startsAtHost = .ok starts) :
    ∃ e b, w.hostEdge = .ok e ∧ e.bound = some b := by
  obtain ⟨head, last, a, z, first, final, boundHead, boundLast, _⟩ := startsAtHost_ok_iff.mp side
  have ends : w.pathEnds = .ok (head, last) := pathEnds_ok_iff.mpr ⟨first, final⟩
  have edge : w.hostEdge = .ok (if starts then head else last) := by
    simp only [hostEdge, ends, side, ok_bind, pure_eq_ok]
  cases starts with
  | true => exact ⟨head, a, edge, boundHead⟩
  | false => exact ⟨last, z, edge, boundLast⟩

/-- The path as it is read in a direction. -/
def readPath (w : Wire) (reversed : Bool) : List Element := if reversed then w.path.reverse else w.path

theorem mem_readPath {w : Wire} {reversed : Bool} {e : Element} : e ∈ w.readPath reversed ↔ e ∈ w.path := by
  cases reversed <;> simp [readPath]

theorem mem_hopsOf_readPath {w : Wire} {reversed : Bool} {h : Hop} :
    h ∈ hopsOf (w.readPath reversed) ↔ (if reversed then h.flip else h) ∈ hopsOf w.path := by
  cases reversed with
  | false => rfl
  | true =>
    simp only [readPath, ↓reduceIte, hopsOf_reverse, List.mem_map, List.mem_reverse]
    constructor
    · rintro ⟨back, member, rfl⟩
      exact member
    · intro member
      exact ⟨h.flip, member, rfl⟩

theorem hopsOf_readPath_not (w : Wire) (reversed : Bool) :
    hopsOf (w.readPath (!reversed)) = (hopsOf (w.readPath reversed)).reverse.map Hop.flip := by
  cases reversed with
  | false => simp [readPath, hopsOf_reverse]
  | true => simp [readPath, hopsOf_reverse, List.map_reverse, Function.comp_def]

/-- A path has as many hops one way as the other. -/
theorem length_hopsOf_readPath (w : Wire) (reversed : Bool) :
    (hopsOf (w.readPath reversed)).length = (hopsOf w.path).length := by
  cases reversed with
  | false => rfl
  | true => rw [readPath, if_pos rfl, hopsOf_reverse, List.length_map, List.length_reverse]

theorem hopsOf_readPath_eq_nil_iff {w : Wire} {reversed : Bool} :
    hopsOf (w.readPath reversed) = [] ↔ hopsOf w.path = [] := by
  rw [← List.length_eq_zero_iff, length_hopsOf_readPath, List.length_eq_zero_iff]

theorem hops_eq (w : Wire) (direction : Direction) :
    w.hops direction = (w.isReversed direction).bind fun reversed =>
      if hopsOf (w.readPath reversed) = [] then .error w.noHops else .ok (hopsOf (w.readPath reversed)) := by
  unfold hops
  cases w.isReversed direction with
  | error e => rfl
  | ok reversed =>
    have same : hopsOf (if reversed = true then w.path.reverse else w.path) = hopsOf (w.readPath reversed) := rfl
    rw [ok_bind, same]
    cases found : hopsOf (w.readPath reversed) with
    | nil => simp [Except.bind, found]
    | cons h hs => simp [Except.bind, found]

theorem hops_ok_iff {w : Wire} {direction : Direction} {hs : List Hop} :
    w.hops direction = .ok hs ↔
      ∃ reversed, w.isReversed direction = .ok reversed ∧ hopsOf (w.readPath reversed) = hs ∧ hs ≠ [] := by
  rw [hops_eq]
  change (w.isReversed direction >>= _) = _ ↔ _
  rw [bind_eq_ok_iff]
  refine exists_congr fun reversed => and_congr_right fun _ => ?_
  by_cases none : hopsOf (w.readPath reversed) = []
  · rw [if_pos none, none]
    simp [eq_comm]
  · rw [if_neg none, Except.ok.injEq]
    constructor
    · rintro rfl
      exact ⟨rfl, none⟩
    · exact And.left

theorem isReversed_toHost (w : Wire) : w.isReversed .toHost = (w.isReversed .toDut).map (!·) := by
  unfold isReversed
  cases w.mode with
  | exclusive => rfl
  | shared => cases w.startsAtHost <;> simp [Except.map]

/-- The hops back are the hops there, from the last to the first and each the other way; where there
    are none in one direction, there are none in the other, for the same reason. -/
theorem hops_toHost (w : Wire) : w.hops .toHost = (w.hops .toDut).map fun hs => hs.reverse.map Hop.flip := by
  rw [hops_eq, hops_eq, isReversed_toHost]
  cases w.isReversed .toDut with
  | error e => rfl
  | ok reversed =>
    simp only [Except.map, Except.bind]
    rw [hopsOf_readPath_not]
    by_cases none : hopsOf (w.readPath reversed) = []
    · simp [none]
    · simp [none]

theorem mem_hops {w : Wire} {direction : Direction} {hs : List Hop} (found : w.hops direction = .ok hs) {h : Hop}
    (member : h ∈ hs) : h.input ∈ w.path ∧ h.output ∈ w.path ∧ h.input.endpoint.node = h.output.endpoint.node := by
  rw [hops_eq] at found
  obtain ⟨reversed, _, kept⟩ := bind_eq_ok_iff.mp found
  split at kept
  · cases kept
  · cases kept
    have ends := mem_hopsOf member
    rwa [mem_readPath, mem_readPath] at ends

end Wire
end PatchPanel
