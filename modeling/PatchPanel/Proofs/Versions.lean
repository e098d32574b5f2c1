import PatchPanel.Proofs.Compiling
import PatchPanel.Proofs.Contents

/-!
The requests and rules of a panel under the three versions. The version of a panel has no part in what
can be wrong with it, OpenFlow 1.2 and 1.3 ask for the same, and OpenFlow 1.0 asks for what the others
ask for with every tag set that is put on there (`Panel.requests_under`). All of this holds request by
request, so it holds of wires and groups and of everything that is merged from them.
-/
namespace PatchPanel

/-! ### Requests -/

/-- The request with its tag set where it is put on, unless another tag is set already. -/
def Request.pushAsSet (r : Request) : Request :=
  match r.pushVlan, r.setVlan with
  | some vlan, none => { r with pushVlan := none, setVlan := some vlan }
  | _, _ => r

/-- A request of the later versions as it is under a version. -/
def Request.under : Version → Request → Request
  | .v10 => pushAsSet
  | .v12 | .v13 => id

/-- The requests of the later versions as they are under a version. -/
def RequestMap.under (version : Version) (m : RequestMap) : RequestMap := m.map (Request.under version)

variable (version : Version)

/-- OpenFlow 1.2 asks for what OpenFlow 1.3 asks for. -/
theorem RequestMap.under_v12 (m : RequestMap) : m.under .v12 = m := SwitchMap.map_id m

theorem RequestMap.under_merge (m more : RequestMap) :
    RequestMap.under version (m.merge more) = (m.under version).merge (more.under version) :=
  SwitchMap.map_merge _ m more

/-! ### Wires -/

namespace Wire

/-- The wire under another version. -/
def under (w : Wire) : Wire := { w with version := version }

theorem ofEntry_under (old : Version) (name : String) (entry : WireEntry) :
    ofEntry version name entry = (ofEntry old name entry).map (under version) := by
  simp only [ofEntry, bind_map_eq]
  rfl

theorem Profile.between_under (p : Profile) (direction : Direction) (a b : BoundPort) :
    p.between version direction a b = (p.between .v13 direction a b).under version := by
  cases version with
  | v12 => rfl
  | v13 => rfl
  | v10 =>
    cases direction with
    | toHost => rfl
    | toDut =>
      cases tag : p.tagAt b <;>
        simp [between, Request.under, Request.pushAsSet, Request.forward, Version.hasPushVlan, tag]

theorem Profile.request_under (p : Profile) (direction : Direction) (h : Hop) :
    p.request version direction h = (p.request .v13 direction h).map (Request.under version) := by
  simp only [request, bind_map_eq, p.between_under version]
  rfl

theorem emitHops_map {request other : Hop → Except WireFault Request} {f : Request → Request}
    (each : ∀ h, other h = (request h).map f) (hs : List Hop) :
    emitHops other hs = (emitHops request hs).map (List.map fun e => (e.1, f e.2)) := by
  induction hs with
  | nil => rfl
  | cons h hs ih =>
    rw [emitHops, emitHops, each, ih]
    cases request h with
    | error e => rfl
    | ok r => cases emitHops request hs <;> rfl

theorem emit_under (w : Wire) (direction : Direction) :
    (w.under version).emit direction =
      ((w.under .v13).emit direction).map (List.map fun e => (e.1, e.2.under version)) := by
  rw [emit_eq, emit_eq, bind_map_eq]
  have hops : (w.under version).hops direction = (w.under .v13).hops direction := rfl
  have profile : (w.under version).profile = (w.under .v13).profile := rfl
  rw [hops, profile]
  congr 1
  funext hs
  rw [bind_map_eq]
  congr 1
  funext p
  exact emitHops_map (p.request_under version direction) hs

theorem requests_under (w : Wire) :
    (w.under version).requests = ((w.under .v13).requests).map (RequestMap.under version) := by
  unfold requests
  have laid : (w.under version).laid = (w.under .v13).laid := rfl
  rw [laid, emit_under version w .toDut, emit_under version w .toHost]
  cases (w.under .v13).laid with
  | false => rfl
  | true =>
    cases (w.under .v13).emit .toDut with
    | error e => rfl
    | ok there =>
      cases (w.under .v13).emit .toHost with
      | error e => rfl
      | ok back => simp [Except.map, RequestMap.under, SwitchMap.map_ofList]

end Wire

/-! ### Groups -/

namespace Group

/-- The group under another version. -/
def under (g : Group) : Group := { g with version := version }

theorem ofEntry_under (old : Version) (name : String) (entry : GroupEntry) :
    ofEntry version name entry = (ofEntry old name entry).map (under version) := by
  simp only [ofEntry, bind_map_eq]
  congr 1
  funext id
  congr 1
  funext wires
  congr 1
  funext usable
  split <;> rfl

theorem tagBroadcast_under (g : Group) (dutVlan : Option UInt16) (ports : List UInt32) (fromDut toHost : Bool)
    {r : Request} (untagged : r.pushVlan = none ∧ r.setVlan = none) :
    (g.under version).tagBroadcast dutVlan ports fromDut toHost r =
      ((g.under .v13).tagBroadcast dutVlan ports fromDut toHost r).under version := by
  obtain ⟨noPush, noSet⟩ := untagged
  cases version with
  | v12 => rfl
  | v13 => rfl
  | v10 =>
    cases fromDut <;> cases toHost <;> cases dutVlan <;>
      simp [tagBroadcast, fanOut, pushId, under, Request.under, Request.pushAsSet, Version.hasPushVlan, noPush, noSet]

theorem broadcastRequests_under (g : Group) (w : Wire) (ports : List UInt32) :
    (g.under version).broadcastRequests (w.under version) ports =
      ((g.under .v13).broadcastRequests (w.under .v13) ports).map (RequestMap.under version) := by
  have request : ∀ dutVlan h, (g.under version).broadcastRequest dutVlan ports h =
      ((g.under .v13).broadcastRequest dutVlan ports h).map (Request.under version) := by
    intro dutVlan h
    unfold broadcastRequest
    cases h.input.require with
    | error e => rfl
    | ok input =>
      cases h.output.require with
      | error e => rfl
      | ok output => exact congrArg Except.ok (tagBroadcast_under version g dutVlan ports _ _ ⟨rfl, rfl⟩)
  have emitted : (g.under version).emitBroadcast (w.under version) ports =
      ((g.under .v13).emitBroadcast (w.under .v13) ports).map (List.map fun e => (e.1, e.2.under version)) := by
    simp only [emitBroadcast, bind_map_eq, Wire.emitHops_map (request _)]
    rfl
  rw [broadcastRequests, broadcastRequests, emitted]
  cases (g.under .v13).emitBroadcast (w.under .v13) ports with
  | error e => rfl
  | ok es => simp [Except.map, RequestMap.under, SwitchMap.map_ofList]

end Group

/-! ### Wirings -/

namespace Wiring

/-- The wiring with all its wires and groups under another version. -/
def under (w : Wiring) : Wiring := w.revise version (fun _ => Wire.under version) (Group.under version)

theorem revision_under : Revision (fun _ => Wire.under version) (Group.under version) :=
  ⟨fun _ _ => rfl, fun _ _ _ => rfl, fun _ => rfl⟩

theorem members_under (w : Wiring) (g : Group) :
    (w.under version).members (g.under version) = (w.members g).map (List.map (Wire.under version)) := by
  have each : ∀ names, (w.under version).wiresOf g.name names =
      (w.wiresOf g.name names).map (List.map (Wire.under version)) := by
    intro names
    induction names with
    | nil => rfl
    | cons name names ih =>
      have found : (w.under version).wires.get? name = (w.wires.get? name).map (Wire.under version) :=
        Index.get?_mapNamed _ _ name
      rw [wiresOf, wiresOf, found, ih]
      cases w.wires.get? name with
      | none => rfl
      | some wire => cases w.wiresOf g.name names <;> rfl
  exact each g.wires

theorem broadcastPorts_under (w : Wiring) (g : Group) :
    (w.under version).broadcastPorts (g.under version) = w.broadcastPorts g := by
  have same : ∀ ws, hostPorts (ws.map (Wire.under version)) = hostPorts ws := by
    intro ws
    induction ws with
    | nil => rfl
    | cons wire ws ih =>
      rw [List.map_cons, hostPorts, hostPorts, ih]
      rfl
  rw [broadcastPorts, broadcastPorts, members_under, map_bind_eq]
  simp only [same]

theorem mergeWires_under (m : RequestMap) (ws : List Wire) :
    mergeWires (m.under version) (ws.map (Wire.under version)) =
      (mergeWires m (ws.map (Wire.under .v13))).map (RequestMap.under version) := by
  induction ws generalizing m with
  | nil => rfl
  | cons wire ws ih =>
    have own : wireRequests (wire.under version) = (wireRequests (wire.under .v13)).map (RequestMap.under version) := by
      rw [wireRequests, wireRequests, Wire.requests_under, mapError_map_eq]
      rfl
    rw [List.map_cons, List.map_cons, mergeWires, mergeWires, own, map_bind_eq, bind_map_eq]
    congr 1
    funext more
    rw [← RequestMap.under_merge, ih]

theorem broadcastRequests_under (w : Wiring) (g : Group) (members : List Wire) :
    (w.under version).broadcastRequests (g.under version) (members.map (Wire.under version)) =
      ((w.under .v13).broadcastRequests (g.under .v13) (members.map (Wire.under .v13))).map
        (RequestMap.under version) := by
  cases members with
  | nil => rfl
  | cons first rest =>
    simp only [broadcastRequests, List.map_cons, broadcastPorts_under, bind_map_eq,
      Group.broadcastRequests_under version, mapError_map_eq]
    rfl

theorem mergeGroups_under (w : Wiring) (m : RequestMap) (gs : List Group) :
    (w.under version).mergeGroups (m.under version) (gs.map (Group.under version)) =
      ((w.under .v13).mergeGroups m (gs.map (Group.under .v13))).map (RequestMap.under version) := by
  induction gs generalizing m with
  | nil => rfl
  | cons g gs ih =>
    simp only [List.map_cons, mergeGroups, members_under, map_bind_eq, bind_map_eq, mergeWires_under version,
      broadcastRequests_under version, ← RequestMap.under_merge, ih]

theorem exclusiveRequests_under (w : Wiring) :
    (w.under version).exclusiveRequests = ((w.under .v13).exclusiveRequests).map (RequestMap.under version) := by
  have wires : ∀ other, (w.under other).exclusiveWires = w.exclusiveWires.map (Wire.under other) := by
    intro other
    have values : (w.under other).wires.values = w.wires.values.map (Wire.under other) := by
      rw [under, revise, Index.values_mapNamed, Index.values, List.map_map]
      rfl
    rw [exclusiveWires, values, List.filter_map]
    rfl
  rw [exclusiveRequests, exclusiveRequests, wires, wires]
  exact mergeWires_under version .empty w.exclusiveWires

theorem sharedRequests_under (w : Wiring) :
    (w.under version).sharedRequests = ((w.under .v13).sharedRequests).map (RequestMap.under version) := by
  have groups : ∀ other, (w.under other).groups.values = w.groups.values.map (Group.under other) := by
    intro other
    rw [under, revise, Index.map, Index.values, Index.values, List.map_map, List.map_map]
    rfl
  rw [sharedRequests, sharedRequests, groups, groups]
  exact mergeGroups_under version w .empty w.groups.values

end Wiring

/-! ### Panels -/

namespace Panel

/-- The panel under another version. -/
def under (p : Panel) : Panel := ⟨p.topology, p.wiring.under version⟩

theorem ofFiles_under (old : Version) (topology : TopologyFile) (wires : WireFile) :
    ofFiles version topology wires = (ofFiles old topology wires).map (under version) := by
  have same : wires.wires.map (Index.mapNamed fun _ entry => entry) = wires.wires := by
    cases wires.wires with
    | none => rfl
    | some index => exact congrArg some index.mapNamed_self
  have revised := ofFiles_revise (Wiring.revision_under version) (k := fun _ entry => entry)
    (fun name entry => Wire.ofEntry_under version old name entry)
    (fun name entry => Group.ofEntry_under version old name entry) topology wires
  rw [same] at revised
  exact revised

/-- The requests of a panel under a version are those of OpenFlow 1.3 as they are under that version. -/
theorem requests_under (p : Panel) (selection : Selection) :
    (p.under version).requests selection = ((p.under .v13).requests selection).map (RequestMap.under version) := by
  have exclusive : (p.under version).wiring.exclusiveRequests =
      ((p.under .v13).wiring.exclusiveRequests).map (RequestMap.under version) :=
    p.wiring.exclusiveRequests_under version
  have shared : (p.under version).wiring.sharedRequests =
      ((p.under .v13).wiring.sharedRequests).map (RequestMap.under version) :=
    p.wiring.sharedRequests_under version
  unfold requests
  cases selection.hasExclusive <;> cases selection.hasShared <;>
    simp only [Bool.false_eq_true, ↓reduceIte, exclusive, shared, mapError_map_eq, map_bind_eq, bind_map_eq, ok_bind,
      pure_eq_ok, map_ok_eq, RequestMap.under_merge] <;> rfl

/-- Read a panel from its files and make the requests of a selection. -/
def requestsOfFiles (topology : TopologyFile) (wires : WireFile) (selection : Selection) :
    Except DefinitionFault RequestMap := do
  let p ← ofFiles version topology wires
  p.requests selection

/-- Read a panel from its files and make the rules of a selection. -/
def rulesOfFiles (topology : TopologyFile) (wires : WireFile) (selection : Selection) :
    Except CompileFault RuleMap := do
  let p ← (ofFiles version topology wires).mapError .definition
  p.rules selection

theorem requestsOfFiles_eq (topology : TopologyFile) (wires : WireFile) (selection : Selection) :
    requestsOfFiles version topology wires selection =
      (requestsOfFiles .v13 topology wires selection).map (RequestMap.under version) := by
  rw [requestsOfFiles, requestsOfFiles, ofFiles_under version .v13, map_bind_eq, bind_map_eq]
  cases read : ofFiles .v13 topology wires with
  | error fault => rfl
  | ok p =>
    have own : p.under .v13 = p := by
      have again := ofFiles_under .v13 .v13 topology wires
      rw [read] at again
      exact (Except.ok.inj again).symm
    rw [ok_bind, ok_bind, requests_under, own]

theorem requestsOfFiles_v12 (topology : TopologyFile) (wires : WireFile) (selection : Selection) :
    requestsOfFiles .v12 topology wires selection = requestsOfFiles .v13 topology wires selection := by
  rw [requestsOfFiles_eq]
  cases requestsOfFiles .v13 topology wires selection with
  | error fault => rfl
  | ok m => exact congrArg Except.ok m.under_v12

theorem buildAll_v12 : buildAll .v12 = buildAll .v13 := by
  funext rs
  induction rs with
  | nil => rfl
  | cons r rs ih => rw [buildAll, buildAll, build_v12, ih]

theorem rulesOfFiles_v12 (topology : TopologyFile) (wires : WireFile) (selection : Selection) :
    rulesOfFiles .v12 topology wires selection = rulesOfFiles .v13 topology wires selection := by
  rw [rulesOfFiles, rulesOfFiles, ofFiles_under .v12 .v13, mapError_map_eq, map_bind_eq]
  cases read : ofFiles .v13 topology wires with
  | error fault => rfl
  | ok p =>
    have requests : (p.under .v12).requests selection = p.requests selection := by
      have same := requestsOfFiles_v12 topology wires selection
      rwa [requestsOfFiles, requestsOfFiles, ofFiles_under .v12 .v13, read] at same
    have version : p.wiring.version = .v13 := (sound_of_ofFiles read).2
    show (p.under .v12).rules selection = p.rules selection
    rw [rules, rules, requests, version, ← buildAll_v12]
    rfl

/-- How the requests and rules of two files depend on the version. What is wrong with the files is wrong
    under every version. OpenFlow 1.2 and OpenFlow 1.3 have the same requests and the same rules, and
    OpenFlow 1.0 has the same requests with tags set that are put on there. Each request has one rule
    under OpenFlow 1.0; under the other versions it has two if it takes a tag off, and else one. -/
theorem requestsOfFiles_version (topology : TopologyFile) (wires : WireFile) (selection : Selection) :
    (∀ version other fault, requestsOfFiles version topology wires selection = .error fault ↔
      requestsOfFiles other topology wires selection = .error fault) ∧
    requestsOfFiles .v12 topology wires selection = requestsOfFiles .v13 topology wires selection ∧
    rulesOfFiles .v12 topology wires selection = rulesOfFiles .v13 topology wires selection ∧
    requestsOfFiles .v10 topology wires selection =
      (requestsOfFiles .v13 topology wires selection).map (SwitchMap.map Request.pushAsSet) ∧
    ∀ version m, requestsOfFiles version topology wires selection = .ok m →
      ∃ k, rulesOfFiles version topology wires selection = .ok k ∧ k.names = m.names ∧ ∀ switch, ∃ parts,
        List.Forall₂ (fun r part => build version r = .ok part ∧
          part.length = if version.hasPushVlan ∧ r.popVlan then 2 else 1) (m.listOf switch) parts ∧
        k.listOf switch = parts.flatten := by
  refine ⟨?_, requestsOfFiles_v12 .., rulesOfFiles_v12 .., requestsOfFiles_eq .v10 .., ?_⟩
  · have base : ∀ version fault, requestsOfFiles version topology wires selection = .error fault ↔
        requestsOfFiles .v13 topology wires selection = .error fault := by
      intro version fault
      rw [requestsOfFiles_eq version]
      cases requestsOfFiles .v13 topology wires selection <;> simp [Except.map]
    exact fun version other fault => (base version fault).trans (base other fault).symm
  · intro version m made
    obtain ⟨p, read, requested⟩ := bind_eq_ok_iff.mp made
    obtain ⟨sound, sameVersion⟩ := sound_of_ofFiles read
    obtain ⟨k, compiled, names, lists⟩ := rules_of_requests sound requested
    refine ⟨k, ?_, names, fun switch => ?_⟩
    · rw [rulesOfFiles, read]
      exact compiled
    · obtain ⟨parts, each, all⟩ := buildAll_ok_iff.mp (lists switch)
      rw [sameVersion] at each
      exact ⟨parts, each.imp fun r part built => ⟨built, length_of_build built⟩, all⟩

/-- The wires over two switches under OpenFlow 1.0 and 1.3: the tag 200 is set by the one and put on by
    the other, and taking it off is one rule here and two there. -/
theorem requestsOfFiles_version_trunk :
    ∃ m old k oldRules, requestsOfFiles .v13 trunkFile trunkWires .shared = .ok m ∧
      requestsOfFiles .v10 trunkFile trunkWires .shared = .ok old ∧ old = m.map Request.pushAsSet ∧
      rulesOfFiles .v13 trunkFile trunkWires .shared = .ok k ∧
      rulesOfFiles .v10 trunkFile trunkWires .shared = .ok oldRules ∧
      (m.listOf "s2").map Request.pushVlan = [some 200, none, none, some 200, none, none] ∧
      (old.listOf "s2").map Request.pushVlan = [none, none, none, none, none, none] ∧
      (k.listOf "s2").length = 8 ∧ (oldRules.listOf "s2").length = 6 := by
  obtain ⟨_, _, _, recoded, each⟩ := requestsOfFiles_version trunkFile trunkWires .shared
  obtain ⟨m, made⟩ : ∃ m, requestsOfFiles .v13 trunkFile trunkWires .shared = .ok m := ⟨_, rfl⟩
  have oldMade : requestsOfFiles .v10 trunkFile trunkWires .shared = .ok (m.map Request.pushAsSet) := by
    rw [recoded, made]
    rfl
  obtain ⟨k, compiled, _⟩ := each .v13 m made
  obtain ⟨oldRules, oldCompiled, _⟩ := each .v10 _ oldMade
  refine ⟨m, _, k, oldRules, made, oldMade, rfl, compiled, oldCompiled, ?_, ?_, ?_, ?_⟩
  · cases made
    rfl
  · cases made
    rfl
  · cases compiled
    rfl
  · cases oldCompiled
    rfl

end Panel
end PatchPanel
