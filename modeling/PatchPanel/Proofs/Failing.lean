import PatchPanel.Proofs.Cables

/-!
How the compilation of a panel fails. A wire that is laid over a topology can only fail because its path or one
of its ends does not fit (`Wire.misfits_requests`). The wires of a selection are compiled in a fixed order
(`Wiring.asked`), and the panel fails with the fault of the first of them that fails: what is done besides, to
find the wires of a group and to make its broadcasts, has no faults of its own (`Panel.requests_fail`).
-/
namespace PatchPanel

/-! ### Faults of computations -/

section
variable {ε α β : Type}

/-- Every fault of a computation has a property. -/
def FailsBy (P : ε → Prop) (x : Except ε α) : Prop := ∀ e, x = .error e → P e

namespace FailsBy
variable {P : ε → Prop} {x : Except ε α}

theorem ok (a : α) : FailsBy P (.ok a : Except ε α) := nofun

theorem error {e : ε} (has : P e) : FailsBy P (.error e : Except ε α) := by
  rintro _ ⟨⟩
  exact has

theorem bind {f : α → Except ε β} (first : FailsBy P x) (next : ∀ a, x = .ok a → FailsBy P (f a)) :
    FailsBy P (x >>= f) := by
  cases x with
  | error e => exact .error (first e rfl)
  | ok a => exact next a rfl

theorem map (f : α → β) (own : FailsBy P x) : FailsBy P (x.map f) := by
  cases x with
  | error e => exact .error (own e rfl)
  | ok a => exact .ok (f a)

end FailsBy
end

/-! ### Faults of a laid wire -/

/-- A fault of a wire whose path or one of whose ends does not fit the topology that it is laid over. -/
def WireFault.isMisfit : WireFault → Bool
  | .unknownHop _ | .noHops _ | .ambiguous | .badEnd _ _ => true
  | .missingKey _ | .badMode _ | .unbound => false

/-- Every fault of a computation says that a wire does not fit. -/
abbrev Misfits {α : Type} (x : Except WireFault α) : Prop := FailsBy (fun e => e.isMisfit = true) x

theorem Element.misfits_require (e : Element) : Misfits e.require := by
  unfold require
  cases e.bound with
  | some b => exact .ok b
  | none => exact .error rfl

namespace Wire
variable (w : Wire)

theorem misfits_startsAtHost : Misfits w.startsAtHost := by
  have ends : Misfits w.pathEnds := by
    unfold pathEnds
    split
    · exact .ok _
    · exact .error rfl
  refine ends.bind fun ends _ => ?_
  refine ends.1.misfits_require.bind fun head _ => ?_
  refine ends.2.misfits_require.bind fun last _ => ?_
  split
  · exact .ok true
  · split
    · exact .ok false
    · exact .error rfl

theorem misfits_hops (direction : Direction) : Misfits (w.hops direction) := by
  have side : Misfits (w.isReversed direction) := by
    unfold isReversed
    cases w.mode with
    | exclusive => cases direction <;> exact .ok _
    | shared =>
      cases direction with
      | toDut => exact w.misfits_startsAtHost.map _
      | toHost => exact w.misfits_startsAtHost
  refine side.bind fun reversed _ => ?_
  split
  · exact .error rfl
  · exact .ok _

theorem misfits_profile : Misfits w.profile := by
  have host : Misfits w.testHostPort := by
    refine w.testHost.misfits_require.bind fun b _ => ?_
    cases b.port.testHost? with
    | some p => exact .ok p
    | none => exact .error rfl
  have dut : Misfits w.dutHostPort := by
    refine w.dutHost.misfits_require.bind fun b _ => ?_
    cases b.port.dutHost? with
    | some p => exact .ok p
    | none => exact .error rfl
  unfold profile
  cases w.mode with
  | exclusive => exact .ok _
  | shared => exact host.bind fun _ _ => dut.bind fun _ _ => .ok _

theorem misfits_emitHops {request : Hop → Except WireFault Request} (each : ∀ h, Misfits (request h)) (hs : List Hop) :
    Misfits (emitHops request hs) := by
  induction hs with
  | nil => exact .ok []
  | cons h hs ih => exact (each h).bind fun _ _ => ih.bind fun _ _ => .ok _

theorem misfits_emit (direction : Direction) : Misfits (w.emit direction) := by
  rw [emit_eq]
  refine (w.misfits_hops direction).bind fun hs _ => w.misfits_profile.bind fun p _ => ?_
  refine misfits_emitHops (fun h => ?_) hs
  exact h.input.misfits_require.bind fun _ _ => h.output.misfits_require.bind fun _ _ => .ok _

/-- A wire that is laid over a topology is compiled, or it does not fit. -/
theorem misfits_requests {w : Wire} (laid : w.laid = true) : Misfits w.requests := by
  rw [requests, if_pos laid]
  exact (w.misfits_emit .toDut).bind fun _ _ => (w.misfits_emit .toHost).bind fun _ _ => .ok _

end Wire

/-! ### Faults of a selection -/

namespace Wiring
variable {w : Wiring}

/-- The names of the wires of a selection, in the order in which they are compiled: exclusive wires in file order,
    then the wires of each group in the order of the groups and of their wires. -/
def asked (w : Wiring) (selection : Selection) : List String :=
  (if selection.hasExclusive then w.exclusiveWires.map Wire.name else []) ++
    if selection.hasShared then w.groups.values.flatMap Group.wires else []

theorem mem_asked_iff {selection : Selection} {name : String} :
    name ∈ w.asked selection ↔ .wire name ∈ w.origins selection := by
  cases selection <;>
    simp [asked, origins, Group.origins, Selection.hasExclusive, Selection.hasShared]

/-- The fault of the first of some wires that fails. -/
def firstFault? (ws : List Wire) : Option WiringFault := ws.findSome? fun wire => fault? (wireRequests wire)

theorem firstFault?_append (ws later : List Wire) :
    firstFault? (ws ++ later) = (firstFault? ws).or (firstFault? later) := List.findSome?_append

theorem firstFault?_eq_some_iff {ws : List Wire} {fault : WiringFault} :
    firstFault? ws = some fault ↔ ∃ before wire after, ws = before ++ wire :: after ∧
      (∀ v ∈ before, ∃ m, wireRequests v = .ok m) ∧ wireRequests wire = .error fault := by
  simp only [firstFault?, List.findSome?_eq_some_iff, fault?_eq_some_iff, fault?_eq_none_iff]
  constructor
  · rintro ⟨before, wire, after, split, fails, earlier⟩
    exact ⟨before, wire, after, split, earlier, fails⟩
  · rintro ⟨before, wire, after, split, earlier, fails⟩
    exact ⟨before, wire, after, split, fails, earlier⟩

theorem firstFault?_eq_none_iff {ws : List Wire} :
    firstFault? ws = none ↔ ∀ wire ∈ ws, ∃ m, wireRequests wire = .ok m := by
  simp only [firstFault?, List.findSome?_eq_none_iff, fault?_eq_none_iff]

theorem fault?_mergeWires (m : RequestMap) (ws : List Wire) : fault? (mergeWires m ws) = firstFault? ws := by
  induction ws generalizing m with
  | nil => rfl
  | cons wire ws ih =>
    rw [mergeWires, firstFault?, List.findSome?_cons]
    cases wireRequests wire with
    | error e => rfl
    | ok more => exact ih (m.merge more)

theorem exists_wireRequests_iff {wire : Wire} : (∃ m, wireRequests wire = .ok m) ↔ ∃ es, wire.emissions = .ok es := by
  simp only [wireRequests, mapError_eq_ok_iff, Wire.requests_eq, map_eq_ok_iff]
  constructor
  · rintro ⟨m, es, emitted, _⟩
    exact ⟨es, emitted⟩
  · rintro ⟨es, emitted⟩
    exact ⟨_, es, emitted, rfl⟩

/-- The wires of a group are known, and the first of them carries its broadcasts. -/
theorem Sound.exists_members (sound : w.Sound) {g : Group} (member : g ∈ w.groups.values) :
    ∃ first rest, w.members g = .ok (first :: rest) ∧ w.wires.get? g.representative = some first := by
  have known : ∀ name ∈ g.wires, ∃ wire, w.wires.get? name = some wire := by
    intro name listed
    obtain ⟨wire, found, _⟩ := sound.groupWires g member name listed
    exact ⟨wire, found⟩
  obtain ⟨members, named⟩ := exists_forall₂ known
  cases members with
  | nil => exact absurd (List.forall₂_nil_right_iff.mp named) g.wires_ne_nil
  | cons first rest => exact ⟨first, rest, wiresOf_ok_iff.mpr named, head_of_forall₂ named g.wires_ne_nil⟩

/-- Where the wires of a group are compiled, its broadcasts are, too. -/
theorem Sound.exists_broadcastRequests (sound : w.Sound) {g : Group} (member : g ∈ w.groups.values)
    {members : List Wire} (known : w.members g = .ok members)
    (each : ∀ wire ∈ members, ∃ m, wireRequests wire = .ok m) :
    (∃ ports, w.broadcastPorts g = .ok ports) ∧ ∃ m, w.broadcastRequests g members = .ok m := by
  have named := wiresOf_ok_iff.mp known
  have emits : ∀ name ∈ g.wires, ∃ es, w.emitted? (.wire name) = some es := by
    intro name listed
    obtain ⟨wire, inside, found⟩ := exists_left_of_forall₂ named.flip listed
    obtain ⟨es, emitted⟩ := exists_wireRequests_iff.mp (each wire inside)
    exact ⟨es, emitted?_wire.mpr ⟨wire, found, emitted⟩⟩
  obtain ⟨es, broadcasts⟩ := sound.exists_broadcasts member emits
  exact ⟨sound.exists_broadcastPorts member emits, _, broadcastRequests_of_emitted known broadcasts⟩

/-- Merging groups fails with the fault of the first wire of theirs that fails. -/
theorem Sound.fault?_mergeGroups (sound : w.Sound) {gs : List Group} (ofFile : ∀ g ∈ gs, g ∈ w.groups.values) :
    ∃ ws, List.Forall₂ (fun name wire => w.wires.get? name = some wire) (gs.flatMap Group.wires) ws ∧
      ∀ m, fault? (w.mergeGroups m gs) = firstFault? ws := by
  induction gs with
  | nil => exact ⟨[], .nil, fun m => rfl⟩
  | cons g gs ih =>
    obtain ⟨member, others⟩ := List.forall_mem_cons.mp ofFile
    obtain ⟨ws, later, merged⟩ := ih others
    obtain ⟨first, rest, known, _⟩ := sound.exists_members member
    refine ⟨(first :: rest) ++ ws, List.rel_append (wiresOf_ok_iff.mp known) later, fun m => ?_⟩
    rw [mergeGroups, known, ok_bind, firstFault?_append, ← fault?_mergeWires m]
    cases ofWires : mergeWires m (first :: rest) with
    | error e => rfl
    | ok requests =>
      have compiled : firstFault? (first :: rest) = none := by rw [← fault?_mergeWires m, ofWires]; rfl
      obtain ⟨_, broadcasts, made⟩ := sound.exists_broadcastRequests member known (firstFault?_eq_none_iff.mp compiled)
      rw [ok_bind, made, ok_bind, merged]
      rfl

end Wiring

namespace Panel

/-- A selection fails with the fault of the first of its wires that fails. -/
theorem fault?_requests {p : Panel} (sound : p.wiring.Sound) (selection : Selection) :
    ∃ ws, List.Forall₂ (fun name wire => p.wiring.wires.get? name = some wire) (p.wiring.asked selection) ws ∧
      fault? (p.requests selection) = (Wiring.firstFault? ws).map .wiring := by
  obtain ⟨ws, grouped, merged⟩ := sound.fault?_mergeGroups (fun _ member => member)
  refine ⟨(if selection.hasExclusive then p.wiring.exclusiveWires else []) ++ if selection.hasShared then ws else [],
    List.rel_append ?_ ?_, ?_⟩
  · cases selection.hasExclusive with
    | true => exact sound.known_exclusiveWires
    | false => exact .nil
  · cases selection.hasShared with
    | true => exact grouped
    | false => exact .nil
  · have inOrder : p.requests selection =
        ((if selection.hasExclusive then p.wiring.exclusiveRequests.mapError .wiring else .ok .empty) >>=
          fun exclusive =>
            (if selection.hasShared then p.wiring.sharedRequests.mapError .wiring else .ok .empty) >>= fun shared =>
              pure ((SwitchMap.empty.merge exclusive).merge shared)) := by
      unfold requests
      cases selection.hasExclusive <;> cases selection.hasShared <;> rfl
    rw [Wiring.firstFault?_append, Option.map_or, inOrder, fault?_both]
    congr 1
    · cases selection.hasExclusive with
      | true =>
        show fault? (p.wiring.exclusiveRequests.mapError _) = _
        rw [fault?_mapError, Wiring.exclusiveRequests, Wiring.fault?_mergeWires]
        rfl
      | false => rfl
    · cases selection.hasShared with
      | true =>
        show fault? (p.wiring.sharedRequests.mapError _) = _
        rw [fault?_mapError, Wiring.sharedRequests, merged]
        rfl
      | false => rfl

/-- A selection fails exactly if one of its wires fails, with the fault of the first one that does: its path or
    one of its ends does not fit the topology. The wires of a group are always found, the first of them for its
    broadcasts, and where they are compiled, the ports and the requests of the broadcasts are made, too. A shared
    wire in no group is not compiled, so no selection fails because of it. -/
theorem requests_fail {version : Version} {topology : TopologyFile} {wires : WireFile} {p : Panel}
    (read : ofFiles version topology wires = .ok p) (selection : Selection) :
    ∃ ws, List.Forall₂ (fun name w => p.wiring.wires.get? name = some w) (p.wiring.asked selection) ws ∧
      (∀ fault, p.requests selection = .error fault ↔ ∃ before w after cause, ws = before ++ w :: after ∧
        (∀ v ∈ before, ∃ m, Wiring.wireRequests v = .ok m) ∧ Wiring.wireRequests w = .error cause ∧
        fault = .wiring cause) ∧
      (∀ w ∈ ws, ∀ cause, Wiring.wireRequests w = .error cause →
        ∃ e : WireFault, cause = .wire w.name e ∧ e.isMisfit = true) ∧
      (∀ g ∈ p.wiring.groups.values, ∃ first rest, p.wiring.members g = .ok (first :: rest) ∧
        p.wiring.wires.get? g.representative = some first ∧
        ((∀ w ∈ first :: rest, ∃ m, Wiring.wireRequests w = .ok m) →
          (∃ ports, p.wiring.broadcastPorts g = .ok ports) ∧
          ∃ m, p.wiring.broadcastRequests g (first :: rest) = .ok m)) ∧
      ∀ name ∈ p.wiring.ungrouped, name ∉ p.wiring.asked selection := by
  obtain ⟨sound, _⟩ := sound_of_ofFiles read
  obtain ⟨free, _, _, laid⟩ := ofFiles_ok_iff.mp read
  obtain ⟨ws, named, failing⟩ := fault?_requests sound selection
  refine ⟨ws, named, fun fault => ?_, fun w member cause fails => ?_, fun g member => ?_, fun name alone => ?_⟩
  · rw [← fault?_eq_some_iff, failing, Option.map_eq_some_iff]
    simp only [Wiring.firstFault?_eq_some_iff]
    constructor
    · rintro ⟨cause, ⟨before, w, after, split, earlier, fails⟩, rfl⟩
      exact ⟨before, w, after, cause, split, earlier, fails, rfl⟩
    · rintro ⟨before, w, after, cause, split, earlier, fails, rfl⟩
      exact ⟨cause, ⟨before, w, after, split, earlier, fails⟩, rfl⟩
  · obtain ⟨name, _, found⟩ := exists_left_of_forall₂ named member
    rw [laid] at found
    obtain ⟨before, _, rfl⟩ := Wiring.get?_lay_eq_some_iff.mp found
    rw [Wiring.wireRequests, ← fault?_eq_some_iff, fault?_mapError, Option.map_eq_some_iff] at fails
    obtain ⟨e, own, same⟩ := fails
    exact ⟨e, same.symm, Wire.misfits_requests rfl e (fault?_eq_some_iff.mp own)⟩
  · obtain ⟨first, rest, known, carries⟩ := sound.exists_members member
    exact ⟨first, rest, known, carries, sound.exists_broadcastRequests member known⟩
  · rw [Wiring.mem_asked_iff]
    exact sound.not_mem_origins alone selection

private def strayPortEntry (edge : String) : WireEntry where
  mode := some "shared"
  path := some [⟨"s1", "p1"⟩, ⟨"s1", "p2"⟩, ⟨"s2", "p1"⟩, ⟨"s2", edge⟩]
  testHostPort := some ⟨"h", "e"⟩
  dutHostPort := some ⟨"d", "e"⟩

/-- A wire that fits the trunk, and two that name ports that are not there, one of them in no group. -/
def strayPortWires : WireFile where
  wires := some (.ofList [("u", strayPortEntry "p7"), ("w", strayPortEntry "p2"), ("v", strayPortEntry "p8")])
  groups := some (.ofList [("g", ⟨some 7, some ["w", "v"]⟩)])

/-- The second wire of the group fails, and so does the panel; the wire in no group is not asked. -/
theorem requests_fail_trunk :
    ∃ p v w cause, ofFiles .v13 trunkFile strayPortWires = .ok p ∧ p.wiring.asked .shared = ["w", "v"] ∧
      p.wiring.wires.get? "w" = some w ∧ p.wiring.wires.get? "v" = some v ∧
      (∃ m, Wiring.wireRequests w = .ok m) ∧ Wiring.wireRequests v = .error cause ∧
      p.requests .shared = .error (.wiring cause) ∧ cause = .wire "v" (.unknownHop ⟨"s2", "p8"⟩) ∧
      p.wiring.ungrouped = ["u"] ∧ "u" ∉ p.wiring.asked .shared := by
  obtain ⟨p, read⟩ : ∃ p, ofFiles .v13 trunkFile strayPortWires = .ok p := ⟨_, rfl⟩
  obtain ⟨w, ofW⟩ : ∃ w, p.wiring.wires.get? "w" = some w := by cases read; exact ⟨_, rfl⟩
  obtain ⟨v, ofV⟩ : ∃ v, p.wiring.wires.get? "v" = some v := by cases read; exact ⟨_, rfl⟩
  have asked : p.wiring.asked .shared = ["w", "v"] := by cases read; rfl
  have ungrouped : p.wiring.ungrouped = ["u"] := by cases read; rfl
  have compiled : ∃ m, Wiring.wireRequests w = .ok m := by cases read; cases ofW; exact ⟨_, rfl⟩
  have fails : Wiring.wireRequests v = .error (.wire "v" (.unknownHop ⟨"s2", "p8"⟩)) := by
    cases read; cases ofV; rfl
  obtain ⟨ws, named, failing, _, _, alone⟩ := requests_fail read .shared
  have listed : ws = [w, v] := by
    rw [asked] at named
    obtain _ | ⟨first, _ | ⟨second, _ | _⟩⟩ := named
    rw [Option.some.inj (ofW.symm.trans first), Option.some.inj (ofV.symm.trans second)]
  refine ⟨p, v, w, _, read, asked, ofW, ofV, compiled, fails, ?_, rfl, ungrouped, ?_⟩
  · exact (failing _).mpr ⟨[w], v, [], _, listed, by simpa using compiled, fails, rfl⟩
  · exact alone "u" (by rw [ungrouped]; exact List.mem_cons_self)

end Panel
end PatchPanel
