import PatchPanel.Proofs.Mirror

/-!
Which wires are compiled. All that keeps a laid wire from being compiled is known beforehand, in the order in which it
is looked for (`Wire.faults`): on a shared wire the ends of its path, then whether the path has two neighbours on one
node at all, on a shared wire its two hosts, then every element at which a frame enters or leaves a node. What is
reported is the first of it. A wire with nothing to report is compiled in both directions
(`Wire.compiled_or_first_fault`).
-/
namespace PatchPanel

/-! ### Neighbours on one node -/

/-- The neighbours on a path that lie on one node, from the first to the last. -/
def nodePairs (path : List Element) : List (Element × Element) :=
  (path.zip path.tail).filter fun pair => pair.1.endpoint.node = pair.2.endpoint.node

/-- The hops of a path are its neighbours on one node. -/
theorem hopsOf_eq_map (path : List Element) : hopsOf path = (nodePairs path).map fun pair => ⟨pair.1, pair.2⟩ := by
  induction path with
  | nil => rfl
  | cons first rest ih =>
    cases rest with
    | nil => rfl
    | cons second rest =>
      by_cases same : first.endpoint.node = second.endpoint.node
      · simp [hopsOf, nodePairs, same, ih]
      · simp [hopsOf, nodePairs, same, ih]

theorem hopsOf_eq_nil_iff {path : List Element} : hopsOf path = [] ↔ nodePairs path = [] := by
  rw [hopsOf_eq_map, List.map_eq_nil_iff]

/-- Two elements are neighbours if one follows the other. -/
theorem mem_zip_tail_iff {α : Type} {a b : α} {path : List α} : (a, b) ∈ path.zip path.tail ↔ [a, b] <:+: path := by
  induction path with
  | nil => simp
  | cons first rest ih =>
    cases rest with
    | nil =>
      rw [List.infix_cons_iff]
      simp
    | cons second rest =>
      rw [List.tail_cons] at ih ⊢
      rw [List.infix_cons_iff, List.zip_cons_cons, List.mem_cons, ih]
      simp [List.cons_prefix_cons]

theorem mem_nodePairs_iff {a b : Element} {path : List Element} :
    (a, b) ∈ nodePairs path ↔ [a, b] <:+: path ∧ a.endpoint.node = b.endpoint.node := by
  rw [nodePairs, List.mem_filter, mem_zip_tail_iff, decide_eq_true_iff]

theorem nodePairs_ne_nil_iff {path : List Element} :
    nodePairs path ≠ [] ↔ ∃ a b, [a, b] <:+: path ∧ a.endpoint.node = b.endpoint.node := by
  rw [ne_eq, List.eq_nil_iff_forall_not_mem]
  simp only [not_forall, not_not, Prod.exists, mem_nodePairs_iff]

theorem mem_hopsOf_iff {h : Hop} {path : List Element} :
    h ∈ hopsOf path ↔ [h.input, h.output] <:+: path ∧ h.input.endpoint.node = h.output.endpoint.node := by
  rw [hopsOf_eq_map, List.mem_map, ← mem_nodePairs_iff]
  constructor
  · rintro ⟨pair, member, rfl⟩
    exact member
  · intro member
    exact ⟨_, member, rfl⟩

/-! ### What keeps a wire from being compiled -/

namespace Element

/-- What is wrong with an element that has to name a port. -/
def missing (e : Element) : List WireFault := faultUnless (e.bound.isSome = true) (.unknownHop e.endpoint)

/-- The element is bound to a port of some sort. -/
def boundTo (e : Element) (sort : Port → Bool) : Bool := e.bound.any fun b => sort b.port

/-- What is wrong with an element that has to name a port of the sort at one end of a wire. -/
def endFaults (e : Element) (side : WireEnd) (sort : Port → Bool) : List WireFault :=
  e.missing ++ faultUnless (e.boundTo sort = true) (.badEnd side e.endpoint)

theorem boundTo_iff {e : Element} {sort : Port → Bool} :
    e.boundTo sort = true ↔ ∃ b, e.bound = some b ∧ sort b.port = true := by
  rw [boundTo, Option.any_eq_true]

theorem missing_eq_nil_iff {e : Element} : e.missing = [] ↔ e.bound.isSome := faultUnless_eq_nil_iff

theorem isSome_of_boundTo {e : Element} {sort : Port → Bool} (is : e.boundTo sort = true) : e.bound.isSome := by
  obtain ⟨b, bound, _⟩ := boundTo_iff.mp is
  exact Option.isSome_of_eq_some bound

theorem endFaults_eq_nil_iff {e : Element} {side : WireEnd} {sort : Port → Bool} :
    e.endFaults side sort = [] ↔ e.boundTo sort = true := by
  rw [endFaults, List.append_eq_nil_iff, missing_eq_nil_iff, faultUnless_eq_nil_iff, and_iff_right_iff_imp]
  exact isSome_of_boundTo

theorem fault?_require (e : Element) : fault? e.require = e.missing.head? := by
  unfold require missing faultUnless
  cases e.bound <;> rfl

/-- Reading the port at one end of a wire fails if the element names no port, or one of another sort. -/
theorem fault?_end {α : Type} {e : Element} {side : WireEnd} {sort : Port → Bool}
    {read : BoundPort → Except WireFault α}
    (reads : ∀ b, fault? (read b) = (faultUnless (sort b.port = true) (WireFault.badEnd side e.endpoint)).head?) :
    fault? (e.require >>= read) = (e.endFaults side sort).head? := by
  rw [endFaults, List.head?_append, ← fault?_require]
  refine fault?_bind fun b bound => ?_
  rw [reads, boundTo, require_ok_iff.mp bound, Option.any_some]

end Element

namespace Wire

/-- What is wrong with the ends of the path of a shared wire: there are none, one of them names no port, or they are
    not a host edge and a DUT edge. -/
def edgeFaults (w : Wire) : List WireFault :=
  match w.path.head?, w.path.getLast? with
  | some head, some last =>
    head.missing ++ last.missing ++
      faultUnless (head.boundTo Port.isHostEdge = true ∧ last.boundTo Port.isDutEdge = true ∨
        head.boundTo Port.isDutEdge = true ∧ last.boundTo Port.isHostEdge = true) .ambiguous
  | _, _ => [w.noHops]

/-- What is wrong with the two hosts of a shared wire. -/
def hostFaults (w : Wire) : List WireFault :=
  w.testHost.endFaults .testHost (fun p => p.testHost?.isSome) ++
    w.dutHost.endFaults .dutHost fun p => p.dutHost?.isSome

/-- The path is written from the host under test to the test host. -/
def readsBack (w : Wire) : Bool := w.isShared && w.path.head?.any fun head => head.boundTo Port.isDutEdge

/-- What is wrong with the hops of a wire, from the test host to the host under test. -/
def hopFaults (w : Wire) : List WireFault :=
  (nodePairs (w.readPath w.readsBack)).flatMap fun pair => pair.1.missing ++ pair.2.missing

/-- All that keeps a laid wire from being compiled, in the order in which it is looked for. -/
def faults (w : Wire) : List WireFault :=
  (if w.isShared then w.edgeFaults else []) ++ faultUnless (nodePairs w.path ≠ []) w.noHops ++
    (if w.isShared then w.hostFaults else []) ++ w.hopFaults

/-- What it takes that a laid wire is compiled: two neighbours on its path lie on one node, and wherever two do, both
    name ports; and if the wire is shared, one end of the path faces a test host and the other a host under test, and
    its two hosts are there. -/
structure IsCompilable (w : Wire) : Prop where
  pair : ∃ a b, [a, b] <:+: w.path ∧ a.endpoint.node = b.endpoint.node
  bound : ∀ a b, [a, b] <:+: w.path → a.endpoint.node = b.endpoint.node → a.bound.isSome ∧ b.bound.isSome
  edges : w.mode = .shared → ∃ head last a z, w.path.head? = some head ∧ w.path.getLast? = some last ∧
    head.bound = some a ∧ last.bound = some z ∧ (a.port.isHostEdge = true ∧ z.port.isDutEdge = true ∨
      a.port.isDutEdge = true ∧ z.port.isHostEdge = true)
  testHost : w.mode = .shared → ∃ b, w.testHost.bound = some b ∧ b.port.testHost?.isSome
  dutHost : w.mode = .shared → ∃ b, w.dutHost.bound = some b ∧ b.port.dutHost?.isSome

/-! ### The first fault -/

section
variable {w : Wire}

theorem fault?_startsAtHost (w : Wire) : fault? w.startsAtHost = w.edgeFaults.head? := by
  unfold startsAtHost pathEnds edgeFaults
  cases w.path.head? with
  | none => rfl
  | some head =>
    cases w.path.getLast? with
    | none => rfl
    | some last =>
      simp only [ok_bind, List.head?_append, ← Element.fault?_require, Option.or_assoc]
      refine fault?_bind fun a boundHead => fault?_bind fun z boundLast => ?_
      rw [Element.require_ok_iff] at boundHead boundLast
      simp only [Element.boundTo, boundHead, boundLast, Option.any_some, faultUnless, Bool.and_eq_true]
      by_cases forth : a.port.isHostEdge = true ∧ z.port.isDutEdge = true
      · rw [if_pos forth, if_pos (.inl forth)]
        rfl
      · by_cases back : a.port.isDutEdge = true ∧ z.port.isHostEdge = true
        · rw [if_neg forth, if_pos back, if_pos (.inr back)]
          rfl
        · rw [if_neg forth, if_neg back, if_neg (not_or.mpr ⟨forth, back⟩)]
          rfl

theorem fault?_isReversed (w : Wire) :
    fault? (w.isReversed .toDut) = (if w.isShared then w.edgeFaults else []).head? := by
  unfold isReversed isShared
  cases w.mode with
  | exclusive => rfl
  | shared =>
    simp only [decide_true, if_true]
    rw [fault?_map, fault?_startsAtHost]

theorem fault?_hops (w : Wire) : fault? (w.hops .toDut) =
    ((if w.isShared then w.edgeFaults else []) ++ faultUnless (nodePairs w.path ≠ []) w.noHops).head? := by
  rw [hops_eq, List.head?_append, ← fault?_isReversed]
  refine fault?_bind fun reversed _ => ?_
  have noHops : hopsOf (w.readPath reversed) = [] ↔ nodePairs w.path = [] :=
    hopsOf_readPath_eq_nil_iff.trans hopsOf_eq_nil_iff
  simp only [noHops]
  by_cases none : nodePairs w.path = []
  · simp [none, faultUnless, fault?]
  · simp [none, faultUnless, fault?]

/-- Where the ends of the path face hosts, the path is read from the one that faces the test host. -/
theorem readsBack_of_isReversed {reversed : Bool} (side : w.isReversed .toDut = .ok reversed) :
    w.readsBack = reversed := by
  unfold isReversed at side
  unfold readsBack isShared
  cases mode : w.mode with
  | exclusive =>
    rw [mode] at side
    cases side
    rfl
  | shared =>
    simp only [mode, map_eq_ok_iff] at side
    obtain ⟨starts, side, rfl⟩ := side
    obtain ⟨head, last, a, z, first, _, boundHead, _, host, dut⟩ := startsAtHost_ok_iff.mp side
    simp only [first, Option.any_some, Element.boundTo, boundHead, decide_true, Bool.true_and]
    cases starts with
    | true =>
      -- A port that faces a test host does not face a host under test.
      cases facing : a.port.isDutEdge with
      | false => rfl
      | true =>
        rw [cond_true, Port.isHostEdge_of_isDutEdge facing] at host
        cases host
    | false => exact dut

theorem fault?_profile (w : Wire) : fault? w.profile = (if w.isShared then w.hostFaults else []).head? := by
  unfold profile isShared
  cases w.mode with
  | exclusive => rfl
  | shared =>
    have ofHost : fault? w.testHostPort = (w.testHost.endFaults .testHost fun p => p.testHost?.isSome).head? :=
      Element.fault?_end fun b => by cases b.port.testHost? <;> rfl
    have ofDut : fault? w.dutHostPort = (w.dutHost.endFaults .dutHost fun p => p.dutHost?.isSome).head? :=
      Element.fault?_end fun b => by cases b.port.dutHost? <;> rfl
    simp only [decide_true, if_true]
    rw [fault?_both, ofHost, ofDut, hostFaults, List.head?_append]

theorem Profile.fault?_request (p : Profile) (version : Version) (direction : Direction) (h : Hop) :
    fault? (p.request version direction h) = (h.input.missing ++ h.output.missing).head? := by
  rw [request, fault?_both, Element.fault?_require, Element.fault?_require, List.head?_append]

theorem fault?_emitHops (p : Profile) (version : Version) (direction : Direction) (hs : List Hop) :
    fault? (emitHops (p.request version direction) hs) =
      (hs.flatMap fun h => h.input.missing ++ h.output.missing).head? := by
  induction hs with
  | nil => rfl
  | cons h hs ih =>
    rw [emitHops, fault?_both, Profile.fault?_request, ih, ← List.head?_append, List.flatMap_cons]

/-- Compiling a wire towards the host under test fails with the first of its faults. -/
theorem fault?_emit_toDut (w : Wire) : fault? (w.emit .toDut) = w.faults.head? := by
  rw [emit_eq, faults, List.append_assoc, List.head?_append, ← fault?_hops]
  refine fault?_bind fun hs hops => ?_
  rw [List.head?_append, ← fault?_profile]
  refine fault?_bind fun p _ => ?_
  obtain ⟨reversed, side, rfl, _⟩ := hops_ok_iff.mp hops
  rw [fault?_emitHops, hopFaults, readsBack_of_isReversed side, hopsOf_eq_map, List.flatMap_map]

/-- A laid wire fails as it does towards the host under test: there is nothing more to fail on the way back. -/
theorem fault?_requests_lay (t : Topology) (w : Wire) : fault? (w.lay t).requests = (w.lay t).faults.head? := by
  have back : ∀ there, (w.lay t).emit .toDut = .ok there →
      fault? ((w.lay t).emit .toHost >>= fun back => pure (there ++ back)) = none := by
    intro there forth
    rw [fault?_bind_pure, emit_toHost forth]
    rfl
  rw [requests_eq, fault?_map, ← fault?_emit_toDut]
  exact (fault?_bind back).trans Option.or_none

/-! ### Nothing to report -/

theorem edgeFaults_eq_nil_iff : w.edgeFaults = [] ↔ ∃ head last a z, w.path.head? = some head ∧
    w.path.getLast? = some last ∧ head.bound = some a ∧ last.bound = some z ∧
    (a.port.isHostEdge = true ∧ z.port.isDutEdge = true ∨ a.port.isDutEdge = true ∧ z.port.isHostEdge = true) := by
  rw [← List.head?_eq_none_iff, ← fault?_startsAtHost, fault?_eq_none_iff]
  simp only [startsAtHost_ok_iff]
  constructor
  · rintro ⟨starts, head, last, a, z, first, final, boundHead, boundLast, host, dut⟩
    refine ⟨head, last, a, z, first, final, boundHead, boundLast, ?_⟩
    cases starts with
    | true => exact .inl ⟨host, dut⟩
    | false => exact .inr ⟨dut, host⟩
  · rintro ⟨head, last, a, z, first, final, boundHead, boundLast, ⟨host, dut⟩ | ⟨dut, host⟩⟩
    · exact ⟨true, head, last, a, z, first, final, boundHead, boundLast, host, dut⟩
    · exact ⟨false, head, last, a, z, first, final, boundHead, boundLast, host, dut⟩

theorem mem_nodePairs_readPath_iff {reversed : Bool} {a b : Element} : (a, b) ∈ nodePairs (w.readPath reversed) ↔
    (if reversed then (b, a) else (a, b)) ∈ nodePairs w.path := by
  cases reversed with
  | false => rfl
  | true =>
    have turned : [a, b] <:+: w.path.reverse ↔ [b, a] <:+: w.path := @List.reverse_infix _ [b, a] _
    simp only [readPath, if_true, mem_nodePairs_iff, turned]
    exact and_congr_right fun _ => eq_comm

theorem hopFaults_eq_nil_iff : w.hopFaults = [] ↔ ∀ a b, [a, b] <:+: w.path → a.endpoint.node = b.endpoint.node →
    a.bound.isSome ∧ b.bound.isSome := by
  have written : w.hopFaults = [] ↔ ∀ a b, (a, b) ∈ nodePairs w.path → a.bound.isSome ∧ b.bound.isSome := by
    simp only [hopFaults, List.flatMap_eq_nil_iff, List.append_eq_nil_iff, Element.missing_eq_nil_iff, Prod.forall,
      mem_nodePairs_readPath_iff]
    cases w.readsBack with
    | false => rfl
    | true =>
      constructor
      · intro each a b member
        exact (each b a member).symm
      · intro each a b member
        exact (each b a member).symm
  simp only [written, mem_nodePairs_iff, and_imp]

/-- Nothing keeps a wire from being compiled exactly if it is compilable. -/
theorem faults_eq_nil_iff : w.faults = [] ↔ w.IsCompilable := by
  have shared : ∀ faults : List WireFault,
      (if w.isShared then faults else []) = [] ↔ (w.mode = .shared → faults = []) := by
    intro faults
    simp [isShared]
  simp only [faults, List.append_eq_nil_iff, shared, faultUnless_eq_nil_iff, edgeFaults_eq_nil_iff,
    nodePairs_ne_nil_iff, hostFaults, Element.endFaults_eq_nil_iff, Element.boundTo_iff, hopFaults_eq_nil_iff]
  constructor
  · rintro ⟨⟨⟨edges, pair⟩, hosts⟩, bound⟩
    exact ⟨pair, bound, edges, fun isShared => (hosts isShared).1, fun isShared => (hosts isShared).2⟩
  · rintro ⟨pair, bound, edges, testHost, dutHost⟩
    exact ⟨⟨⟨edges, pair⟩, fun isShared => ⟨testHost isShared, dutHost isShared⟩⟩, bound⟩

/-- A laid wire is compiled exactly if it is compilable. -/
theorem exists_requests_lay_iff (t : Topology) (w : Wire) :
    (∃ m, (w.lay t).requests = .ok m) ↔ (w.lay t).IsCompilable := by
  rw [← fault?_eq_none_iff, fault?_requests_lay, List.head?_eq_none_iff, faults_eq_nil_iff]

/-- In each direction there is one request for each two neighbours on one node. -/
theorem length_emit {direction : Direction} {es : List Emission} (emitted : w.emit direction = .ok es) :
    es.length = (nodePairs w.path).length := by
  obtain ⟨hs, p, hops, _, each⟩ := emit_ok_iff.mp emitted
  obtain ⟨reversed, _, rfl, _⟩ := hops_ok_iff.mp hops
  rw [← each.length_eq, length_hopsOf_readPath, hopsOf_eq_map, List.length_map]

end

/-- A wire that is laid over a topology is compiled exactly if two neighbours on its path lie on one node and all such
    neighbours name ports, and if, where it is shared, the ends of its path face a test host and a host under test and
    its two hosts are there. Otherwise the first of its faults is reported. Nothing fails on the way back that does
    not fail on the way there, and what is compiled is compiled as a whole: one request for each two neighbours on one
    node, in each direction. -/
theorem compiled_or_first_fault (t : Topology) (w : Wire) :
    (∀ fault, (w.lay t).requests = .error fault ↔ (w.lay t).faults.head? = some fault) ∧
    ((∃ m, (w.lay t).requests = .ok m) ↔ (w.lay t).IsCompilable) ∧
    (∀ there, (w.lay t).emit .toDut = .ok there → ∃ back, (w.lay t).emit .toHost = .ok back) ∧
    ∀ m, (w.lay t).requests = .ok m → ∃ there back, (w.lay t).emit .toDut = .ok there ∧
      (w.lay t).emit .toHost = .ok back ∧ m = .ofList (there ++ back) ∧
      there.length = (nodePairs (w.lay t).path).length ∧ back.length = (nodePairs (w.lay t).path).length := by
  refine ⟨fun fault => ?_, exists_requests_lay_iff t w, fun there forth => ⟨_, emit_toHost forth⟩, fun m made => ?_⟩
  · rw [← fault?_eq_some_iff, fault?_requests_lay]
  · rw [requests_eq, map_eq_ok_iff] at made
    obtain ⟨es, emitted, grouped⟩ := made
    obtain ⟨_, there, back, forth, backwards, rfl⟩ := emissions_ok_iff.mp emitted
    exact ⟨there, back, forth, backwards, grouped.symm, length_emit forth, length_emit backwards⟩

/-- The wire over two switches with a port on each that is not there, and with the host under test at both ends. -/
def brokenWire : Wire :=
  { trunkWire with
    path := [.free ⟨"s2", "p2"⟩, .free ⟨"s2", "p8"⟩, .free ⟨"s1", "p9"⟩, .free ⟨"s1", "p1"⟩]
    testHost := .free ⟨"d", "e"⟩ }

/-- The wrong host is reported first, and then the missing ports as they lie from the test host on, although the path is
    written the other way. The wire with both ports is compiled. -/
theorem compiled_or_first_fault_trunk :
    (brokenWire.lay trunkTopology).faults =
      [.badEnd .testHost ⟨"d", "e"⟩, .unknownHop ⟨"s1", "p9"⟩, .unknownHop ⟨"s2", "p8"⟩] ∧
    (brokenWire.lay trunkTopology).requests = .error (.badEnd .testHost ⟨"d", "e"⟩) ∧
    ∃ m there back, (trunkWire.lay trunkTopology).requests = .ok m ∧
      (trunkWire.lay trunkTopology).emit .toDut = .ok there ∧
      (trunkWire.lay trunkTopology).emit .toHost = .ok back ∧ there.length = 2 ∧ back.length = 2 := by
  have faults : (brokenWire.lay trunkTopology).faults =
      [.badEnd .testHost ⟨"d", "e"⟩, .unknownHop ⟨"s1", "p9"⟩, .unknownHop ⟨"s2", "p8"⟩] := by rfl
  obtain ⟨_, compiled, _, whole⟩ := compiled_or_first_fault trunkTopology trunkWire
  obtain ⟨m, made⟩ := compiled.mpr (faults_eq_nil_iff.mp rfl)
  obtain ⟨there, back, forth, backwards, _, lengthThere, lengthBack⟩ := whole m made
  refine ⟨faults, ?_, m, there, back, made, forth, backwards, lengthThere, lengthBack⟩
  rw [(compiled_or_first_fault trunkTopology brokenWire).1, faults]
  rfl

end Wire
end PatchPanel
