import PatchPanel.Proofs.Failing

/-!
Laying wires over one topology after the other. Laying changes what elements are bound to and nothing that the
file says of a wire (`Wire.definition_lay`), and what a laid wire is follows from its definition and the topology
alone (`Wire.lay_eq`). So after any run of topologies only the last one counts (`Wiring.layAll_last`).
-/
namespace PatchPanel

/-! ### Definitions of wires -/

/-- The element of an endpoint in a topology. -/
def Topology.element (t : Topology) (e : Endpoint) : Element := ⟨e, t.bound? e⟩

/-- What a file says of a wire, which has nothing to do with any topology. -/
structure WireDefinition where
  name : String
  mode : WireMode
  version : Version
  path : List Endpoint
  testHost : Endpoint
  dutHost : Endpoint
  deriving DecidableEq

/-- The wire of a definition with every endpoint looked up in a topology. -/
def WireDefinition.over (t : Topology) (d : WireDefinition) : Wire :=
  ⟨d.name, d.mode, d.version, d.path.map t.element, t.element d.testHost, t.element d.dutHost, true⟩

namespace Wire

def definition (w : Wire) : WireDefinition :=
  ⟨w.name, w.mode, w.version, w.path.map Element.endpoint, w.testHost.endpoint, w.dutHost.endpoint⟩

/-- All elements of a wire: those of its path and its two ends. -/
def elements (w : Wire) : List Element := w.path ++ [w.testHost, w.dutHost]

/-- A laid wire is made of its definition; what it was bound to before is not looked at. -/
theorem lay_eq (t : Topology) (w : Wire) : w.lay t = w.definition.over t := by
  have path : w.path.map (·.bind t) = (w.path.map Element.endpoint).map t.element := by
    rw [List.map_map]
    rfl
  rw [lay, path]
  rfl

theorem definition_lay (t : Topology) (w : Wire) : (w.lay t).definition = w.definition := by
  have path : (w.path.map (·.bind t)).map Element.endpoint = w.path.map Element.endpoint := by
    rw [List.map_map]
    rfl
  rw [definition, lay, path]
  rfl

/-- The elements of a laid wire are bound to what their endpoints name in the topology, or to nothing. -/
theorem bound_of_mem_elements {t : Topology} {w : Wire} {e : Element} (member : e ∈ (w.lay t).elements) :
    e.bound = t.bound? e.endpoint := by
  rcases List.mem_append.mp member with onPath | atEnd
  · exact bound_of_mem_lay onPath
  · rcases List.mem_pair.mp atEnd with rfl | rfl <;> rfl

/-- A wire has no requests for lack of a topology only as long as it was laid over none. -/
theorem requests_unbound_iff (w : Wire) : w.requests = .error .unbound ↔ w.laid = false := by
  cases laid : w.laid with
  | false => simp [requests, laid]
  | true =>
    simp only [Bool.true_eq_false, iff_false]
    intro unbound
    cases misfits_requests laid .unbound unbound

end Wire

/-! ### Runs of topologies -/

namespace Wiring

/-- The wires laid over topologies one after the other. -/
def layAll (w : Wiring) (ts : List Topology) : Wiring := ts.foldl (fun w t => w.lay t) w

def definitions (w : Wiring) : Index WireDefinition := w.wires.map Wire.definition

/-- Two wirings that were read from one file, whatever they were laid over. -/
structure SameFile (w v : Wiring) : Prop where
  version : w.version = v.version
  definitions : w.definitions = v.definitions
  groups : w.groups = v.groups

theorem wires_lay (t : Topology) (w : Wiring) : (w.lay t).wires = w.definitions.map (WireDefinition.over t) := by
  show w.wires.mapNamed (fun _ wire => wire.lay t) =
    (w.wires.mapNamed fun _ wire => wire.definition).mapNamed fun _ d => d.over t
  rw [Index.mapNamed_mapNamed]
  simp only [Wire.lay_eq]

/-- One topology more changes nothing of what the file says. -/
theorem sameFile_lay (t : Topology) (w : Wiring) : (w.lay t).SameFile w := by
  refine ⟨rfl, ?_, rfl⟩
  show (w.wires.mapNamed fun _ wire => wire.lay t).mapNamed (fun _ wire => wire.definition) =
    w.wires.mapNamed fun _ wire => wire.definition
  rw [Index.mapNamed_mapNamed]
  simp only [Wire.definition_lay]

/-- Nor does a run of topologies. -/
theorem sameFile_layAll (w : Wiring) (ts : List Topology) : (w.layAll ts).SameFile w := by
  induction ts generalizing w with
  | nil => exact ⟨rfl, rfl, rfl⟩
  | cons t ts ih =>
    have first := w.sameFile_lay t
    have later := ih (w.lay t)
    exact ⟨later.version.trans first.version, later.definitions.trans first.definitions,
      later.groups.trans first.groups⟩

/-- Wirings of one file are the same as soon as they are laid over one topology. -/
theorem SameFile.lay_eq {w v : Wiring} (same : w.SameFile v) (t : Topology) : w.lay t = v.lay t := by
  have wires : (w.lay t).wires = (v.lay t).wires := by rw [wires_lay, wires_lay, same.definitions]
  show (⟨w.version, (w.lay t).wires, w.groups⟩ : Wiring) = ⟨v.version, (v.lay t).wires, v.groups⟩
  rw [same.version, wires, same.groups]

theorem layAll_concat (w : Wiring) (ts : List Topology) (t : Topology) : w.layAll (ts ++ [t]) = w.lay t := by
  have last : w.layAll (ts ++ [t]) = (w.layAll ts).lay t := List.foldl_concat ..
  rw [last]
  exact (w.sameFile_layAll ts).lay_eq t

/-- The wires of a file are bound to nothing. -/
theorem laid_of_ofFile {version : Version} {file : WireFile} {w : Wiring} (read : ofFile version file = .ok w) :
    ∀ wire ∈ w.wires.values, wire.laid = false ∧ ∀ e ∈ wire.elements, e.bound = none := by
  simp only [ofFile, bind_eq_ok_iff, pure_eq_ok, Except.ok.injEq] at read
  obtain ⟨_, _, _, _, wires, wiresRead, _, _, rfl⟩ := read
  intro wire member
  obtain ⟨name, found⟩ := Index.mem_values.mp member
  obtain ⟨entry, _, made⟩ := Index.get?_of_traverse wiresRead found
  rw [mapError_eq_ok_iff, Wire.ofEntry_ok_iff] at made
  obtain ⟨_, _, path, _, _, _, _, _, _, _, rfl⟩ := made
  refine ⟨rfl, fun e inside => ?_⟩
  rcases List.mem_append.mp inside with onPath | atEnd
  · obtain ⟨endpoint, _, rfl⟩ := List.mem_map.mp onPath
    rfl
  · rcases List.mem_pair.mp atEnd with rfl | rfl <;> rfl

/-- Only the last topology counts. The wires of a file have no requests before they are laid over a topology. Laid
    over topologies one after the other, they are what the last one alone makes of them: every wire is its definition
    with every endpoint looked up there, so an endpoint that is not there is bound to nothing, whatever it was bound to
    before. Names, modes, versions, paths, ends and groups stay as they are, and from the first topology on no wire is
    without requests for lack of one. -/
theorem layAll_last {version : Version} {file : WireFile} {w : Wiring} (read : ofFile version file = .ok w)
    (earlier : List Topology) (t : Topology) :
    w.layAll (earlier ++ [t]) = w.lay t ∧ (w.layAll (earlier ++ [t])).SameFile w ∧
    (w.layAll (earlier ++ [t])).wires = w.definitions.map (WireDefinition.over t) ∧
    (∀ wire ∈ (w.layAll (earlier ++ [t])).wires.values, ∀ e ∈ wire.elements, e.bound = t.bound? e.endpoint) ∧
    (∀ wire ∈ w.wires.values, wire.requests = .error .unbound) ∧
    ∀ wire ∈ (w.layAll (earlier ++ [t])).wires.values, wire.requests ≠ .error .unbound := by
  have last := w.layAll_concat earlier t
  have isLaid : ∀ wire ∈ (w.lay t).wires.values, ∃ free, wire = Wire.lay t free := by
    intro wire member
    obtain ⟨name, found⟩ := Index.mem_values.mp member
    obtain ⟨free, _, rfl⟩ := get?_lay_eq_some_iff.mp found
    exact ⟨free, rfl⟩
  refine ⟨last, w.sameFile_layAll _, last ▸ w.wires_lay t, fun wire member e inside => ?_, fun wire member => ?_,
    fun wire member => ?_⟩
  · rw [last] at member
    obtain ⟨free, rfl⟩ := isLaid wire member
    exact Wire.bound_of_mem_elements inside
  · exact wire.requests_unbound_iff.mpr (laid_of_ofFile read wire member).1
  · rw [last] at member
    obtain ⟨free, rfl⟩ := isLaid wire member
    rw [ne_eq, Wire.requests_unbound_iff]
    nofun

/-- A topology in which the trunk has lost its second switch and numbers the ports of the first otherwise. -/
def cutTopology : Topology where
  switches := ⟨[("s1", ⟨"s1", .switch, 9,
    ⟨[("p1", ⟨"p1", .null, .switch .testHost 4⟩), ("p2", ⟨"p2", .null, .switch .switch 3⟩)], by decide⟩⟩)], by decide⟩
  testHosts := trunkTopology.testHosts
  dutHosts := .empty
  links := .ofLinks []

/-- The wires over two switches, laid over both and then over the first alone: the elements on the second switch are
    bound to nothing again, and those on the first have the numbers and the datapath id that the last topology gives
    them. -/
theorem layAll_last_cut :
    ∃ w x laid, ofFile .v13 trunkWires = .ok w ∧ w.wires.get? "x" = some x ∧ x.requests = .error .unbound ∧
      w.layAll [trunkTopology, cutTopology] = w.lay cutTopology ∧
      (w.layAll [trunkTopology, cutTopology]).wires.get? "x" = some laid ∧
      laid.path.map (fun e => e.bound.map fun b => (b.datapathId, b.port.number)) =
        [some (9, 4), some (9, 3), none, none] ∧
      laid.dutHost.bound = none ∧ laid.definition = x.definition ∧ laid.requests ≠ .error .unbound := by
  obtain ⟨w, read⟩ : ∃ w, ofFile .v13 trunkWires = .ok w := ⟨_, rfl⟩
  obtain ⟨x, found⟩ : ∃ x, w.wires.get? "x" = some x := by cases read; exact ⟨_, rfl⟩
  obtain ⟨last, _, _, bound, before, after⟩ := layAll_last read [trunkTopology] cutTopology
  have laid : (w.layAll [trunkTopology, cutTopology]).wires.get? "x" = some (x.lay cutTopology) :=
    last ▸ get?_lay_eq_some_iff.mpr ⟨x, found, rfl⟩
  refine ⟨w, x, _, read, found, before x (Index.mem_values.mpr ⟨"x", found⟩), last, laid, ?_, ?_, x.definition_lay _,
    after _ (Index.mem_values.mpr ⟨"x", laid⟩)⟩
  · cases read
    cases found
    rfl
  · cases read
    cases found
    rfl

end Wiring
end PatchPanel
