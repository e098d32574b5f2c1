import PatchPanel.Proofs.Emissions

/-!
Which wire files are accepted. All that is wrong with a file is known beforehand, in the order in which it is looked
for (`WireFile.faults`): missing sections, then what each wire lacks, then what each group lacks and which of its
wires are unknown or not shared. What is reported is the first of it. A file with nothing wrong becomes a wiring with
its wires and groups in their order, in which every wire is exclusive, in some group or in none
(`Wiring.consistent_or_first_fault`).
-/
namespace PatchPanel

/-! ### Faults of wires -/

namespace WireMode

theorem ofName?_eq_some_iff {name : String} {mode : WireMode} : ofName? name = some mode ↔ name = mode.name := by
  unfold ofName? names
  by_cases exclusive : name = "exclusive"
  · subst exclusive
    cases mode <;> decide
  · by_cases shared : name = "shared"
    · subst shared
      cases mode <;> decide
    · have unknown : ¬ name = mode.name := by
        intro same
        cases mode with
        | exclusive => exact exclusive same
        | shared => exact shared same
      rw [List.lookup_cons, beq_false_of_ne exclusive, List.lookup_cons, beq_false_of_ne shared, List.lookup_nil]
      exact iff_of_false (Option.some_ne_none mode).symm unknown

end WireMode

/-- What is wrong with the mode of a wire: there is none, or it is neither of the two. -/
def modeFaults : Option String → List WireFault
  | none => [.missingKey "mode"]
  | some name => faultUnless (name = "exclusive" ∨ name = "shared") (.badMode name)

/-- What is wrong with a wire of a file. -/
def WireEntry.faults (entry : WireEntry) : List WireFault :=
  modeFaults entry.mode ++ faultUnless (entry.path.isSome = true) (.missingKey "path") ++
    faultUnless (entry.testHostPort.isSome = true) (.missingKey "test-host-port") ++
    faultUnless (entry.dutHostPort.isSome = true) (.missingKey "dut-host-port")

namespace Wire

theorem fault?_requireKey {α : Type} (key : String) (given : Option α) :
    fault? (requireKey key given) = (faultUnless (given.isSome = true) (WireFault.missingKey key)).head? := by
  cases given <;> rfl

theorem fault?_readMode (name : String) :
    fault? (readMode name) = (faultUnless (name = "exclusive" ∨ name = "shared") (WireFault.badMode name)).head? := by
  have known : ∀ mode, WireMode.ofName? name = some mode ↔ name = mode.name := fun _ => WireMode.ofName?_eq_some_iff
  unfold readMode faultUnless
  cases found : WireMode.ofName? name with
  | some mode =>
    have named := (known mode).mp found
    rw [if_pos (by cases mode <;> simp [named, WireMode.name])]
    rfl
  | none =>
    have other : ¬ (name = "exclusive" ∨ name = "shared") := by
      rintro (exclusive | shared)
      · cases found.symm.trans ((known .exclusive).mpr exclusive)
      · cases found.symm.trans ((known .shared).mpr shared)
    rw [if_neg other]
    rfl

/-- The fault of a wire is the first of all that is wrong with it. -/
theorem fault?_ofEntry (version : Version) (name : String) (entry : WireEntry) :
    fault? (ofEntry version name entry) = entry.faults.head? := by
  simp only [WireEntry.faults, List.head?_append, ← fault?_requireKey, Option.or_assoc]
  unfold ofEntry
  cases entry.mode with
  | none => rfl
  | some modeName =>
    rw [modeFaults, ← fault?_readMode, show requireKey "mode" (some modeName) = .ok modeName from rfl, ok_bind]
    exact fault?_bind fun _ _ => fault?_bind fun _ _ => fault?_both _ _ _

end Wire

/-! ### Faults of groups -/

/-- What is wrong with a wire of a group: it is unknown, or not shared. -/
def memberFaults (wires : Index WireEntry) (name : String) : List GroupFault :=
  match wires.get? name with
  | none => [.unknownWire name]
  | some entry => faultUnless (entry.mode = some "shared") (.notShared name)

/-- What is wrong with a group of a file, apart from its wires. -/
def GroupEntry.ownFaults (entry : GroupEntry) : List GroupFault :=
  faultUnless (entry.id.isSome = true) (.missingKey "id") ++
    faultUnless (entry.wires.isSome = true) (.missingKey "wires") ++
    (entry.id.toList.flatMap fun id => faultUnless (1 ≤ id.toNat ∧ id.toNat ≤ 4095) (.badId id)) ++
    faultUnless (entry.wires ≠ some []) .noWires

/-- What is wrong with a group of a file that has the given wires. -/
def GroupEntry.faults (wires : Index WireEntry) (entry : GroupEntry) : List GroupFault :=
  entry.ownFaults ++ (entry.wires.getD []).flatMap (memberFaults wires)

namespace Group

theorem fault?_readId (id : UInt64) :
    fault? (readId id) = (faultUnless (1 ≤ id.toNat ∧ id.toNat ≤ 4095) (GroupFault.badId id)).head? := by
  have sameRange : (1 ≤ id ∧ id ≤ 4095) ↔ 1 ≤ id.toNat ∧ id.toNat ≤ 4095 := by
    simp only [UInt64.le_iff_toNat_le]
    exact Iff.rfl
  unfold readId faultUnless
  by_cases inRange : 1 ≤ id.toNat ∧ id.toNat ≤ 4095
  · rw [if_pos (sameRange.mpr inRange), if_pos inRange]
    rfl
  · rw [if_neg (fun range => inRange (sameRange.mp range)), if_neg inRange]
    rfl

theorem fault?_ofEntry (version : Version) (name : String) (entry : GroupEntry) :
    fault? (ofEntry version name entry) = entry.ownFaults.head? := by
  obtain ⟨id, wires⟩ := entry
  cases id with
  | none => rfl
  | some id =>
    cases wires with
    | none => rfl
    | some names =>
      have ofNames : ∀ id : UInt16, fault? (if nonempty : names = [] then Except.error GroupFault.noWires
          else Except.ok (⟨name, id, names, version, nonempty⟩ : Group)) =
          (faultUnless (some names ≠ some []) GroupFault.noWires).head? := by
        intro id
        cases names <;> rfl
      have own : (GroupEntry.ownFaults ⟨some id, some names⟩).head? =
          (fault? (readId id)).or (faultUnless (some names ≠ some []) GroupFault.noWires).head? := by
        rw [fault?_readId, ← List.head?_append]
        simp [GroupEntry.ownFaults, faultUnless]
      rw [own]
      show fault? (readId id >>= _) = _
      exact fault?_bind fun id _ => ofNames id

end Group

namespace Wiring

/-- A name is looked up among the wires as it is among their entries. -/
theorem fault?_checkWire {version : Version} {entries : Index WireEntry} {wires : Index Wire}
    (read : (entries.traverse fun name entry => (Wire.ofEntry version name entry).mapError (WiringFault.wire name)) =
      .ok wires) (name : String) : fault? (checkWire wires name) = (memberFaults entries name).head? := by
  have same : ∀ wire, wires.get? name = some wire ↔ ∃ entry, entries.get? name = some entry ∧
      (Wire.ofEntry version name entry).mapError (WiringFault.wire name) = .ok wire :=
    fun _ => Index.get?_traverse_iff read
  unfold checkWire memberFaults
  cases known : entries.get? name with
  | none =>
    have absent : wires.get? name = none := by
      refine Option.eq_none_iff_forall_ne_some.mpr fun wire found => ?_
      obtain ⟨entry, given, _⟩ := (same wire).mp found
      cases known.symm.trans given
    rw [absent]
    rfl
  | some entry =>
    obtain ⟨wire, found⟩ := Index.exists_get?_of_traverse read (Option.isSome_of_eq_some known)
    obtain ⟨entry', given, made⟩ := (same wire).mp found
    cases known.symm.trans given
    obtain ⟨modeName, mode, _, _, _, ofMode, called, _, _, _, rfl⟩ :=
      Wire.ofEntry_ok_iff.mp (mapError_eq_ok_iff.mp made)
    obtain rfl := WireMode.ofName?_eq_some_iff.mp called
    simp only [found, ofMode]
    cases mode <;> rfl

theorem fault?_checkWires {entries : Index WireEntry} {wires : Index Wire} {names : List String}
    (each : ∀ name, fault? (checkWire wires name) = (memberFaults entries name).head?) :
    fault? (checkWires wires names) = (names.flatMap (memberFaults entries)).head? := by
  induction names with
  | nil => rfl
  | cons name names ih =>
    rw [checkWires, fault?_bind fun _ _ => rfl, each, ih, List.flatMap_cons, List.head?_append]

/-- The fault of a group is the first of all that is wrong with it. -/
theorem fault?_readGroup {version : Version} {entries : Index WireEntry} {wires : Index Wire}
    (read : (entries.traverse fun name entry => (Wire.ofEntry version name entry).mapError (WiringFault.wire name)) =
      .ok wires) (name : String) (entry : GroupEntry) :
    fault? (readGroup version wires name entry) = (entry.faults entries).head? := by
  rw [GroupEntry.faults, List.head?_append, ← Group.fault?_ofEntry version name]
  refine fault?_bind fun g made => ?_
  obtain ⟨_, _, hasWires, _⟩ := Group.ofEntry_ok_iff.mp made
  rw [hasWires, Option.getD_some, ← fault?_checkWires (fault?_checkWire read)]
  cases checkWires wires g.wires <;> rfl

end Wiring

/-! ### Faults of a file -/

/-- All that is wrong with a file, in the order in which it is looked for: missing sections, the wires, the groups. -/
def WireFile.faults (file : WireFile) : List WiringFault :=
  faultUnless (file.wires.isSome = true) (.missingSection "wire-index") ++
    faultUnless (file.groups.isSome = true) (.missingSection "wire-group-index") ++
    ((file.wires.getD .empty).entries.flatMap fun e => e.2.faults.map (.wire e.1)) ++
    (file.groups.getD .empty).entries.flatMap fun e => (e.2.faults (file.wires.getD .empty)).map (.group e.1)

/-- A wire of a file with which nothing is wrong: it has one of the two modes and all other keys. -/
structure WireEntry.IsComplete (entry : WireEntry) : Prop where
  mode : entry.mode = some "exclusive" ∨ entry.mode = some "shared"
  path : entry.path.isSome
  testHostPort : entry.testHostPort.isSome
  dutHostPort : entry.dutHostPort.isSome

/-- A group of a file with which nothing is wrong: its id is that of a VLAN, and it has wires, all of which are shared
    wires of the file. -/
structure GroupEntry.IsConsistent (wires : Index WireEntry) (entry : GroupEntry) : Prop where
  id : ∃ id, entry.id = some id ∧ 1 ≤ id.toNat ∧ id.toNat ≤ 4095
  wires : ∃ names, entry.wires = some names ∧ names ≠ [] ∧
    ∀ name ∈ names, ∃ wire, wires.get? name = some wire ∧ wire.mode = some "shared"

theorem WireEntry.faults_eq_nil_iff {entry : WireEntry} : entry.faults = [] ↔ entry.IsComplete := by
  have ofMode : modeFaults entry.mode = [] ↔ entry.mode = some "exclusive" ∨ entry.mode = some "shared" := by
    cases entry.mode with
    | none => simp [modeFaults]
    | some name => simp [modeFaults, faultUnless_eq_nil_iff]
  simp only [faults, List.append_eq_nil_iff, faultUnless_eq_nil_iff, ofMode]
  constructor
  · rintro ⟨⟨⟨mode, path⟩, testHostPort⟩, dutHostPort⟩
    exact ⟨mode, path, testHostPort, dutHostPort⟩
  · rintro ⟨mode, path, testHostPort, dutHostPort⟩
    exact ⟨⟨⟨mode, path⟩, testHostPort⟩, dutHostPort⟩

theorem memberFaults_eq_nil_iff {wires : Index WireEntry} {name : String} :
    memberFaults wires name = [] ↔ ∃ wire, wires.get? name = some wire ∧ wire.mode = some "shared" := by
  unfold memberFaults
  cases wires.get? name <;> simp [faultUnless_eq_nil_iff]

theorem GroupEntry.faults_eq_nil_iff {wires : Index WireEntry} {entry : GroupEntry} :
    entry.faults wires = [] ↔ entry.IsConsistent wires := by
  simp only [faults, ownFaults, List.append_eq_nil_iff, faultUnless_eq_nil_iff, List.flatMap_eq_nil_iff,
    memberFaults_eq_nil_iff, Option.mem_toList]
  constructor
  · rintro ⟨⟨⟨⟨hasId, hasWires⟩, inRange⟩, nonempty⟩, members⟩
    obtain ⟨id, ofId⟩ := Option.isSome_iff_exists.mp hasId
    obtain ⟨names, ofWires⟩ := Option.isSome_iff_exists.mp hasWires
    rw [ofWires] at nonempty members
    exact ⟨⟨id, ofId, inRange id ofId⟩, names, ofWires, fun none => nonempty (congrArg some none), members⟩
  · rintro ⟨⟨id, ofId, inRange⟩, names, ofWires, nonempty, members⟩
    rw [ofId, ofWires]
    refine ⟨⟨⟨⟨rfl, rfl⟩, ?_⟩, fun none => nonempty (Option.some.inj none)⟩, members⟩
    rintro _ ⟨⟩
    exact inRange

/-- Nothing is wrong with a file that has both sections, complete wires and consistent groups. -/
theorem WireFile.faults_eq_nil_iff {file : WireFile} : file.faults = [] ↔
    ∃ wires groups, file = ⟨some wires, some groups⟩ ∧
      (∀ name entry, wires.get? name = some entry → entry.IsComplete) ∧
      ∀ name entry, groups.get? name = some entry → entry.IsConsistent wires := by
  obtain ⟨wires, groups⟩ := file
  simp only [faults, List.append_eq_nil_iff, faultUnless_eq_nil_iff, List.flatMap_eq_nil_iff, List.map_eq_nil_iff,
    WireEntry.faults_eq_nil_iff, GroupEntry.faults_eq_nil_iff, Index.get?_eq_some_iff, mk.injEq]
  constructor
  · rintro ⟨⟨⟨hasWires, hasGroups⟩, complete⟩, consistent⟩
    obtain ⟨wires, rfl⟩ := Option.isSome_iff_exists.mp hasWires
    obtain ⟨groups, rfl⟩ := Option.isSome_iff_exists.mp hasGroups
    exact ⟨wires, groups, ⟨rfl, rfl⟩, fun name entry => complete (name, entry),
      fun name entry => consistent (name, entry)⟩
  · rintro ⟨wires, groups, ⟨rfl, rfl⟩, complete, consistent⟩
    exact ⟨⟨⟨rfl, rfl⟩, fun e => complete e.1 e.2⟩, fun e => consistent e.1 e.2⟩

namespace Wiring

/-- The fault of a file is the first of all that is wrong with it. -/
theorem fault?_ofFile (version : Version) (file : WireFile) : fault? (ofFile version file) = file.faults.head? := by
  obtain ⟨wires, groups⟩ := file
  cases wires with
  | none => rfl
  | some wires =>
    cases groups with
    | none => rfl
    | some groups =>
      have inOrder : WireFile.faults ⟨some wires, some groups⟩ =
          (wires.entries.flatMap fun e => e.2.faults.map (.wire e.1)) ++
            groups.entries.flatMap fun e => (e.2.faults wires).map (.group e.1) := rfl
      have ofWires : fault? (wires.traverse fun name entry =>
          (Wire.ofEntry version name entry).mapError (WiringFault.wire name)) =
          (wires.entries.flatMap fun e => e.2.faults.map (.wire e.1)).head? :=
        Index.fault?_traverse fun e _ => fault?_mapError_eq (Wire.fault?_ofEntry version e.1 e.2) _
      rw [inOrder, List.head?_append, ← ofWires]
      simp only [ofFile, requireSection, ok_bind]
      refine fault?_bind fun read made => (fault?_bind_pure _ _).trans ?_
      exact Index.fault?_traverse fun e _ => fault?_mapError_eq (fault?_readGroup made e.1 e.2) _

end Wiring

/-! ### Wirings of files -/

/-- A wire with the name, the mode and the endpoints that a file gives it. -/
structure WireEntry.Becomes (entry : WireEntry) (name : String) (w : Wire) : Prop where
  called : w.name = name
  mode : entry.mode = some w.mode.name
  path : entry.path = some (w.path.map Element.endpoint)
  testHost : entry.testHostPort = some w.testHost.endpoint
  dutHost : entry.dutHostPort = some w.dutHost.endpoint

/-- A group with the name, the id and the wires that a file gives it. -/
structure GroupEntry.Becomes (entry : GroupEntry) (name : String) (g : Group) : Prop where
  called : g.name = name
  id : ∃ id, entry.id = some id ∧ g.id.toNat = id.toNat
  wires : entry.wires = some g.wires

theorem Wire.becomes_of_ofEntry {version : Version} {name : String} {entry : WireEntry} {w : Wire}
    (made : ofEntry version name entry = .ok w) : entry.Becomes name w := by
  obtain ⟨modeName, mode, path, testHost, dutHost, ofMode, called, ofPath, ofTest, ofDut, rfl⟩ := ofEntry_ok_iff.mp made
  obtain rfl := WireMode.ofName?_eq_some_iff.mp called
  refine ⟨rfl, ofMode, ?_, ofTest, ofDut⟩
  rw [ofPath, List.map_map]
  exact congrArg some (List.map_id path).symm

theorem Group.becomes_of_ofEntry {version : Version} {name : String} {entry : GroupEntry} {g : Group}
    (made : ofEntry version name entry = .ok g) : entry.Becomes name g := by
  obtain ⟨id, ofId, ofWires, _, same, called, _⟩ := ofEntry_ok_iff.mp made
  exact ⟨called, ⟨id, ofId, same.symm⟩, ofWires⟩

namespace Wiring

/-- The names of the shared wires that are in some group. -/
def grouped (w : Wiring) : List String :=
  ((w.wires.values.filter Wire.isShared).map Wire.name).filter fun name =>
    w.groups.values.any fun g => g.wires.contains name

/-- Every wire is exclusive, in some group, or in none. -/
theorem Sound.names_perm {w : Wiring} (sound : w.Sound) :
    (w.exclusiveWires.map Wire.name ++ w.grouped ++ w.ungrouped).Perm w.wires.names := by
  have shared : (w.grouped ++ w.ungrouped).Perm ((w.wires.values.filter Wire.isShared).map Wire.name) :=
    List.filter_append_perm _ _
  have modes : (w.exclusiveWires ++ w.wires.values.filter Wire.isShared).Perm w.wires.values := by
    have other : w.wires.values.filter Wire.isShared = w.wires.values.filter fun v => !v.isExclusive := by
      refine List.filter_congr fun v _ => ?_
      cases mode : v.mode <;> simp [Wire.isShared, Wire.isExclusive, mode]
    rw [exclusiveWires, other]
    exact List.filter_append_perm _ _
  rw [← sound.names_eq, List.append_assoc]
  exact (shared.append_left _).trans (by simpa using modes.map Wire.name)

/-- The grouped wires are the wires of the groups. -/
theorem Sound.mem_grouped_iff {w : Wiring} (sound : w.Sound) {name : String} :
    name ∈ w.grouped ↔ ∃ g ∈ w.groups.values, name ∈ g.wires := by
  simp only [grouped, List.mem_filter, List.mem_map, List.any_eq_true, List.contains_iff_mem]
  constructor
  · rintro ⟨_, listed⟩
    exact listed
  · rintro ⟨g, member, listed⟩
    obtain ⟨wire, found, mode⟩ := sound.groupWires g member name listed
    refine ⟨⟨wire, ⟨Index.mem_values.mpr ⟨name, found⟩, ?_⟩, (sound.wireName name wire found).1⟩, g, member, listed⟩
    rw [Wire.isShared, mode]
    rfl

theorem becomes_of_ofFile {version : Version} {file : WireFile} {w : Wiring} (read : ofFile version file = .ok w) :
    ∃ wires groups, file = ⟨some wires, some groups⟩ ∧
      List.Forall₂ (fun e found => found.1 = e.1 ∧ e.2.Becomes e.1 found.2) wires.entries w.wires.entries ∧
      List.Forall₂ (fun e found => found.1 = e.1 ∧ e.2.Becomes e.1 found.2) groups.entries w.groups.entries := by
  simp only [ofFile, bind_eq_ok_iff, requireSection_ok_iff, pure_eq_ok, Except.ok.injEq] at read
  obtain ⟨wireEntries, hasWires, groupEntries, hasGroups, wires, wiresRead, groups, groupsRead, rfl⟩ := read
  obtain ⟨_, _⟩ := file
  cases hasWires
  cases hasGroups
  refine ⟨wireEntries, groupEntries, rfl, (Index.traverse_ok_iff.mp wiresRead).imp ?_,
    (Index.traverse_ok_iff.mp groupsRead).imp ?_⟩
  · rintro e found ⟨same, made⟩
    exact ⟨same, Wire.becomes_of_ofEntry (mapError_eq_ok_iff.mp made)⟩
  · rintro e found ⟨same, made⟩
    obtain ⟨g, own, checked⟩ := bind_eq_ok_iff.mp (mapError_eq_ok_iff.mp made)
    obtain ⟨_, _, kept⟩ := bind_eq_ok_iff.mp checked
    cases kept
    exact ⟨same, Group.becomes_of_ofEntry own⟩

/-- A file is accepted if and only if it has both sections, every wire has one of the two modes and all other keys,
    and every group has an id in range and at least one wire, all of them shared wires of the file. Otherwise the
    first fault is reported: a missing section, of the first wire with a fault its first one, of the first group
    with a fault its first one. The wiring of an accepted file has the wires and groups of the file in their order,
    with the ids as they are given, and each of its wires is either exclusive, or in some group, or in none. -/
theorem consistent_or_first_fault (version : Version) (file : WireFile) :
    (∀ fault, ofFile version file = .error fault ↔ file.faults.head? = some fault) ∧
    ((∃ w, ofFile version file = .ok w) ↔ ∃ wires groups, file = ⟨some wires, some groups⟩ ∧
      (∀ name entry, wires.get? name = some entry → entry.IsComplete) ∧
      ∀ name entry, groups.get? name = some entry → entry.IsConsistent wires) ∧
    ∀ w, ofFile version file = .ok w → (∃ wires groups, file = ⟨some wires, some groups⟩ ∧
        List.Forall₂ (fun e found => found.1 = e.1 ∧ e.2.Becomes e.1 found.2) wires.entries w.wires.entries ∧
        List.Forall₂ (fun e found => found.1 = e.1 ∧ e.2.Becomes e.1 found.2) groups.entries w.groups.entries) ∧
      w.wires.names.Nodup ∧
      (w.exclusiveWires.map Wire.name ++ w.grouped ++ w.ungrouped).Perm w.wires.names ∧
      ∀ name, name ∈ w.grouped ↔ ∃ g ∈ w.groups.values, name ∈ g.wires := by
  refine ⟨fun fault => ?_, ?_, fun w read => ?_⟩
  · rw [← fault?_eq_some_iff, fault?_ofFile]
  · rw [← fault?_eq_none_iff, fault?_ofFile, List.head?_eq_none_iff]
    exact WireFile.faults_eq_nil_iff
  · obtain ⟨sound, _⟩ := sound_of_ofFile read
    exact ⟨becomes_of_ofFile read, w.wires.nodup, sound.names_perm, fun name => sound.mem_grouped_iff⟩

/-- The wires of the trunk with a group whose id has the low bits of a VLAN id, and a group of an exclusive wire and
    an unknown one. -/
def crossedWires : WireFile :=
  { trunkWires with
    groups := some (.ofList [("g", ⟨some 65543, some ["w"]⟩), ("k", ⟨some 8, some ["x", "v"]⟩)]) }

/-- Of three faults the id of the first group is reported. The trunk itself has a wire of each sort. -/
theorem consistent_or_first_fault_trunk :
    crossedWires.faults =
      [.group "g" (.badId 65543), .group "k" (.notShared "x"), .group "k" (.unknownWire "v")] ∧
    ofFile .v13 crossedWires = .error (.group "g" (.badId 65543)) ∧
    ∃ w, ofFile .v13 trunkWires = .ok w ∧ w.wires.names = ["x", "w", "u"] ∧ w.exclusiveWires.map Wire.name = ["x"] ∧
      w.grouped = ["w"] ∧ w.ungrouped = ["u"] ∧
      (w.exclusiveWires.map Wire.name ++ w.grouped ++ w.ungrouped).Perm w.wires.names := by
  have faults : crossedWires.faults =
      [.group "g" (.badId 65543), .group "k" (.notShared "x"), .group "k" (.unknownWire "v")] := by rfl
  obtain ⟨w, read⟩ : ∃ w, ofFile .v13 trunkWires = .ok w := by
    rw [(consistent_or_first_fault .v13 trunkWires).2.1, ← WireFile.faults_eq_nil_iff]
    rfl
  obtain ⟨_, _, parts, _⟩ := (consistent_or_first_fault .v13 trunkWires).2.2 w read
  refine ⟨faults, ?_, w, read, ?_, ?_, ?_, ?_, parts⟩
  · rw [(consistent_or_first_fault .v13 crossedWires).1, faults]
    rfl
  all_goals
    cases read
    rfl

end Wiring
end PatchPanel
