import PatchPanel.Panel
import PatchPanel.Proofs.Building

/-!
What holds of every wiring that is read from a file, and still holds when it is laid over a topology:
wires and groups have the names that they stand under and the version of the wiring, the id of a group
can be used as a VLAN id, and the wires of a group are known and shared (`Wiring.Sound`).
-/
namespace PatchPanel

namespace Wire

theorem requireKey_ok_iff {α : Type} {key : String} {given : Option α} {value : α} :
    requireKey key given = .ok value ↔ given = some value := by
  cases given <;> simp [requireKey]

theorem readMode_ok_iff {name : String} {mode : WireMode} :
    readMode name = .ok mode ↔ WireMode.ofName? name = some mode := by
  unfold readMode
  cases WireMode.ofName? name <;> simp

theorem ofEntry_ok_iff {version : Version} {name : String} {entry : WireEntry} {w : Wire} :
    ofEntry version name entry = .ok w ↔ ∃ modeName mode path testHost dutHost,
      entry.mode = some modeName ∧ WireMode.ofName? modeName = some mode ∧ entry.path = some path ∧
      entry.testHostPort = some testHost ∧ entry.dutHostPort = some dutHost ∧
      w = ⟨name, mode, version, path.map .free, .free testHost, .free dutHost, false⟩ := by
  simp only [ofEntry, bind_eq_ok_iff, requireKey_ok_iff, readMode_ok_iff, pure_eq_ok, Except.ok.injEq]
  constructor
  · rintro ⟨modeName, hasMode, mode, known, path, hasPath, testHost, hasTest, dutHost, hasDut, rfl⟩
    exact ⟨modeName, mode, path, testHost, dutHost, hasMode, known, hasPath, hasTest, hasDut, rfl⟩
  · rintro ⟨modeName, mode, path, testHost, dutHost, hasMode, known, hasPath, hasTest, hasDut, rfl⟩
    exact ⟨modeName, hasMode, mode, known, path, hasPath, testHost, hasTest, dutHost, hasDut, rfl⟩

end Wire

namespace Group

theorem requireKey_ok_iff {α : Type} {key : String} {given : Option α} {value : α} :
    requireKey key given = .ok value ↔ given = some value := by
  cases given <;> simp [requireKey]

/-- An id in range is kept as it is. -/
theorem readId_ok_iff {given : UInt64} {id : UInt16} :
    readId given = .ok id ↔ IsVlanId id ∧ given.toNat = id.toNat := by
  unfold readId IsVlanId maxVlanId
  simp only [UInt64.le_iff_toNat_le, UInt16.le_iff_toNat_le]
  by_cases inRange : 1 ≤ given.toNat ∧ given.toNat ≤ 4095
  · have kept : given.toUInt16.toNat = given.toNat := by
      rw [UInt64.toNat_toUInt16]
      omega
    have bounds : (1 : UInt64).toNat ≤ given.toNat ∧ given.toNat ≤ (4095 : UInt64).toNat := inRange
    rw [if_pos bounds, Except.ok.injEq]
    constructor
    · rintro rfl
      rw [kept]
      exact ⟨inRange, rfl⟩
    · rintro ⟨_, same⟩
      exact UInt16.toNat_inj.mp (kept.trans same)
  · have bounds : ¬ ((1 : UInt64).toNat ≤ given.toNat ∧ given.toNat ≤ (4095 : UInt64).toNat) := inRange
    rw [if_neg bounds]
    constructor
    · intro failed
      cases failed
    · rintro ⟨range, same⟩
      rw [same] at inRange
      exact absurd range inRange

theorem ofEntry_ok_iff {version : Version} {name : String} {entry : GroupEntry} {g : Group} :
    ofEntry version name entry = .ok g ↔ ∃ given, entry.id = some given ∧ entry.wires = some g.wires ∧
      IsVlanId g.id ∧ given.toNat = g.id.toNat ∧ g.name = name ∧ g.version = version := by
  simp only [ofEntry, bind_eq_ok_iff, requireKey_ok_iff, readId_ok_iff]
  constructor
  · rintro ⟨given, hasId, wires, hasWires, id, ⟨range, same⟩, made⟩
    split at made
    · cases made
    · cases made
      exact ⟨given, hasId, hasWires, range, same, rfl, rfl⟩
  · rintro ⟨given, hasId, hasWires, range, same, rfl, rfl⟩
    refine ⟨given, hasId, g.wires, hasWires, g.id, ⟨range, same⟩, ?_⟩
    rw [dif_neg g.wires_ne_nil]
    rfl

end Group

namespace Wiring

theorem requireSection_ok_iff {α : Type} {name : String} {given : Option α} {value : α} :
    requireSection name given = .ok value ↔ given = some value := by
  cases given <;> simp [requireSection]

theorem checkWires_ok_iff {wires : Index Wire} {names : List String} :
    checkWires wires names = .ok () ↔ ∀ name ∈ names, ∃ w, wires.get? name = some w ∧ w.mode = .shared := by
  have checkWire_ok_iff : ∀ name, checkWire wires name = .ok () ↔ ∃ w, wires.get? name = some w ∧ w.mode = .shared := by
    intro name
    unfold checkWire
    cases wires.get? name with
    | none => simp
    | some w =>
      cases mode : w.mode <;> simp [Wire.isShared, mode]
  induction names with
  | nil => simp [checkWires]
  | cons name names ih =>
    rw [List.forall_mem_cons]
    refine Iff.trans ?_ (and_congr (checkWire_ok_iff name) ih)
    rw [checkWires, check_bind_eq_ok_iff]

/-- What holds of every wiring that is read from a file. -/
structure Sound (w : Wiring) : Prop where
  wireName : ∀ name wire, w.wires.get? name = some wire → wire.name = name ∧ wire.version = w.version
  groupName : ∀ name g, w.groups.get? name = some g → g.name = name ∧ g.version = w.version
  groupId : ∀ g ∈ w.groups.values, IsVlanId g.id
  groupWires : ∀ g ∈ w.groups.values, ∀ name ∈ g.wires, ∃ wire, w.wires.get? name = some wire ∧ wire.mode = .shared

theorem sound_of_ofFile {version : Version} {file : WireFile} {w : Wiring} (read : ofFile version file = .ok w) :
    w.Sound ∧ w.version = version := by
  simp only [ofFile, bind_eq_ok_iff, requireSection_ok_iff, pure_eq_ok, Except.ok.injEq] at read
  obtain ⟨wireEntries, _, groupEntries, _, wires, wiresRead, groups, groupsRead, rfl⟩ := read
  have ofGroup : ∀ name g, groups.get? name = some g → g.name = name ∧ g.version = version ∧ IsVlanId g.id ∧
      ∀ member ∈ g.wires, ∃ wire, wires.get? member = some wire ∧ wire.mode = .shared := by
    intro name g found
    obtain ⟨entry, _, made⟩ := Index.get?_of_traverse groupsRead found
    rw [mapError_eq_ok_iff, readGroup, bind_eq_ok_iff] at made
    obtain ⟨g', ofEntry, made⟩ := made
    obtain ⟨_, checked, same⟩ := bind_eq_ok_iff.mp made
    cases same
    obtain ⟨_, _, _, range, _, sameName, sameVersion⟩ := Group.ofEntry_ok_iff.mp ofEntry
    exact ⟨sameName, sameVersion, range, checkWires_ok_iff.mp checked⟩
  refine ⟨⟨?_, ?_, ?_, ?_⟩, rfl⟩
  case refine_1 =>
    intro name wire found
    obtain ⟨entry, _, made⟩ := Index.get?_of_traverse wiresRead found
    rw [mapError_eq_ok_iff, Wire.ofEntry_ok_iff] at made
    obtain ⟨_, _, _, _, _, _, _, _, _, _, rfl⟩ := made
    exact ⟨rfl, rfl⟩
  case refine_2 =>
    intro name g found
    obtain ⟨sameName, sameVersion, _⟩ := ofGroup name g found
    exact ⟨sameName, sameVersion⟩
  case refine_3 =>
    intro g member
    obtain ⟨name, found⟩ := Index.mem_values.mp member
    exact (ofGroup name g found).2.2.1
  case refine_4 =>
    intro g member
    obtain ⟨name, found⟩ := Index.mem_values.mp member
    exact (ofGroup name g found).2.2.2

/-- A wire of a sound wiring stands under its own name. -/
theorem Sound.get?_name {w : Wiring} (sound : w.Sound) {wire : Wire} (member : wire ∈ w.wires.values) :
    w.wires.get? wire.name = some wire := by
  obtain ⟨name, found⟩ := Index.mem_values.mp member
  rw [(sound.wireName name wire found).1]
  exact found

theorem Sound.names_eq {w : Wiring} (sound : w.Sound) : w.wires.values.map Wire.name = w.wires.names := by
  rw [Index.values, Index.names, List.map_map]
  apply List.map_congr_left
  rintro ⟨name, wire⟩ member
  exact (sound.wireName name wire (Index.get?_eq_some_iff.mpr member)).1

/-- The wires of a wiring that is laid over a topology are wires laid over it. -/
theorem get?_lay_eq_some_iff {w : Wiring} {t : Topology} {name : String} {wire : Wire} :
    (w.lay t).wires.get? name = some wire ↔ ∃ free, w.wires.get? name = some free ∧ free.lay t = wire := by
  rw [lay, Index.get?_map, Option.map_eq_some_iff]

theorem Sound.lay {w : Wiring} (sound : w.Sound) (t : Topology) : (w.lay t).Sound := by
  refine ⟨?_, sound.groupName, sound.groupId, ?_⟩
  · intro name wire found
    obtain ⟨free, before, rfl⟩ := get?_lay_eq_some_iff.mp found
    exact sound.wireName name free before
  · intro g member name named
    obtain ⟨free, before, mode⟩ := sound.groupWires g member name named
    exact ⟨free.lay t, get?_lay_eq_some_iff.mpr ⟨free, before, rfl⟩, mode⟩

/-! ### Wirings of related files -/

/-- The wiring with every wire and every group changed, under a version. -/
def revise (version : Version) (f : String → Wire → Wire) (h : Group → Group) (w : Wiring) : Wiring :=
  ⟨version, w.wires.mapNamed f, w.groups.map h⟩

/-- A change of wires and groups that keeps what the groups are checked for. -/
structure Revision (f : String → Wire → Wire) (h : Group → Group) : Prop where
  mode : ∀ name wire, (f name wire).mode = wire.mode
  lay : ∀ t name wire, (f name wire).lay t = f name (wire.lay t)
  wires : ∀ g, (h g).wires = g.wires

variable {version other : Version} {k : String → WireEntry → WireEntry} {f : String → Wire → Wire} {h : Group → Group}

theorem Revision.checkWires (revision : Revision f h) (wires : Index Wire) (names : List String) :
    checkWires (wires.mapNamed f) names = checkWires wires names := by
  induction names with
  | nil => rfl
  | cons name names ih =>
    have one : checkWire (wires.mapNamed f) name = checkWire wires name := by
      unfold checkWire
      rw [Index.get?_mapNamed]
      cases wires.get? name with
      | none => rfl
      | some wire => simp [Wire.isShared, revision.mode]
    rw [Wiring.checkWires, Wiring.checkWires, one, ih]

/-- A change of the entries of a file that changes the wires and groups of the entries in one way
    changes the whole wiring in this way, and keeps every fault. -/
theorem Revision.ofFile (revision : Revision f h)
    (wire : ∀ name entry, Wire.ofEntry other name (k name entry) = (Wire.ofEntry version name entry).map (f name))
    (group : ∀ name entry, Group.ofEntry other name entry = (Group.ofEntry version name entry).map h)
    (file : WireFile) :
    ofFile other { file with wires := file.wires.map (Index.mapNamed k) } =
      (ofFile version file).map (revise other f h) := by
  obtain ⟨wires, groups⟩ := file
  cases wires with
  | none => rfl
  | some wires =>
    cases groups with
    | none => rfl
    | some groups =>
      have wiresRead : (wires.mapNamed k).traverse
          (fun name entry => (Wire.ofEntry other name entry).mapError (WiringFault.wire name)) =
          (wires.traverse fun name entry => (Wire.ofEntry version name entry).mapError (WiringFault.wire name)).map
            (Index.mapNamed f) := by
        rw [Index.traverse_mapNamed]
        apply Index.traverse_map
        intro name entry
        rw [wire, mapError_map_eq]
      have groupsRead : ∀ read : Index Wire, groups.traverse
          (fun name entry => (readGroup other (read.mapNamed f) name entry).mapError (WiringFault.group name)) =
          (groups.traverse fun name entry => (readGroup version read name entry).mapError (WiringFault.group name)).map
            (Index.map h) := by
        intro read
        apply Index.traverse_map (h := fun _ => h)
        intro name entry
        have same : readGroup other (read.mapNamed f) name entry = (readGroup version read name entry).map h := by
          rw [readGroup, readGroup, group, map_bind_eq, bind_map_eq]
          congr 1
          funext g
          rw [revision.wires, revision.checkWires, bind_map_eq]
          rfl
        rw [same, mapError_map_eq]
      simp only [Wiring.ofFile, requireSection, ok_bind, Option.map_some, wiresRead, map_bind_eq,
        bind_map_eq, groupsRead]
      rfl

theorem Revision.lay_revise (revision : Revision f h) (t : Topology) (w : Wiring) :
    (w.revise version f h).lay t = (w.lay t).revise version f h := by
  have same : ((w.revise version f h).lay t).wires = ((w.lay t).revise version f h).wires := by
    show (w.wires.mapNamed f).mapNamed (fun _ wire => wire.lay t) =
      (w.wires.mapNamed fun _ wire => wire.lay t).mapNamed f
    rw [Index.mapNamed_mapNamed, Index.mapNamed_mapNamed]
    simp only [revision.lay]
  exact congrArg (fun wires => (⟨version, wires, w.groups.map h⟩ : Wiring)) same

end Wiring

namespace Panel

/-- A panel is made of the topology of the one file and the wiring of the other, laid over it. -/
theorem ofFiles_ok_iff {version : Version} {topology : TopologyFile} {wires : WireFile} {p : Panel} :
    ofFiles version topology wires = .ok p ↔ ∃ w, Topology.ofFile topology = .ok p.topology ∧
      Wiring.ofFile version wires = .ok w ∧ p.wiring = w.lay p.topology := by
  simp only [ofFiles, bind_eq_ok_iff, mapError_eq_ok_iff, pure_eq_ok, Except.ok.injEq]
  constructor
  · rintro ⟨t, readTopology, w, readWiring, rfl⟩
    exact ⟨w, readTopology, readWiring, rfl⟩
  · rintro ⟨w, readTopology, readWiring, same⟩
    refine ⟨p.topology, readTopology, w, readWiring, ?_⟩
    rw [← same]

theorem sound_of_ofFiles {version : Version} {topology : TopologyFile} {wires : WireFile} {p : Panel}
    (made : ofFiles version topology wires = .ok p) : p.wiring.Sound ∧ p.wiring.version = version := by
  obtain ⟨w, _, readWiring, laid⟩ := ofFiles_ok_iff.mp made
  obtain ⟨sound, sameVersion⟩ := Wiring.sound_of_ofFile readWiring
  rw [laid]
  exact ⟨sound.lay p.topology, sameVersion⟩

/-- The panel with every wire and every group changed, under a version. -/
def revise (version : Version) (f : String → Wire → Wire) (h : Group → Group) (p : Panel) : Panel :=
  ⟨p.topology, p.wiring.revise version f h⟩

theorem ofFiles_revise {version other : Version} {k : String → WireEntry → WireEntry} {f : String → Wire → Wire}
    {h : Group → Group} (revision : Wiring.Revision f h)
    (wire : ∀ name entry, Wire.ofEntry other name (k name entry) = (Wire.ofEntry version name entry).map (f name))
    (group : ∀ name entry, Group.ofEntry other name entry = (Group.ofEntry version name entry).map h)
    (topology : TopologyFile) (wires : WireFile) :
    ofFiles other topology { wires with wires := wires.wires.map (Index.mapNamed k) } =
      (ofFiles version topology wires).map (revise other f h) := by
  simp only [ofFiles, revision.ofFile wire group, mapError_map_eq, map_bind_eq, bind_map_eq, revision.lay_revise]
  rfl

end Panel
end PatchPanel
