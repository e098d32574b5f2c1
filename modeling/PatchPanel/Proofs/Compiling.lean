import PatchPanel.Proofs.Emissions
import PatchPanel.Proofs.Building

/-!
Compiling never fails behind the requests. Every request that a wire or a group emits can be built
(`Panel.buildable_of_requests`): its tags come from a tagged port or from the id of a group, and both
are in range, and a group has at least one wire by which its broadcasts leave. So the rules of a panel
are those of its requests one by one (`Panel.rules_of_requests`).
-/
namespace PatchPanel

/-! ### What is emitted can be built -/

theorem DutHostPort.isVlanId_of_vlan? {port : DutHostPort} {id : UInt16} (tagged : port.vlan? = some id) :
    IsVlanId id := by
  unfold vlan? at tagged
  split at tagged
  · next usable =>
    cases tagged
    simp only [hasVlan, Bool.and_eq_true, decide_eq_true_eq, UInt32.lt_iff_toNat_lt] at usable
    obtain ⟨⟨_, positive⟩, below⟩ := usable
    have lower : 0 < port.vlanId.toNat := positive
    have upper : port.vlanId.toNat < 4096 := below
    have kept : port.vlanId.toUInt16.toNat = port.vlanId.toNat := by
      rw [UInt32.toNat_toUInt16]
      omega
    have bounds : 1 ≤ port.vlanId.toUInt16.toNat ∧ port.vlanId.toUInt16.toNat ≤ 4095 := by omega
    exact bounds
  · cases tagged

namespace Wire

theorem isVlanId_of_profile {w : Wire} {p : Profile} (made : w.profile = .ok p) {id : UInt16}
    (tagged : p.vlan = some id) :
    IsVlanId id := by
  cases mode : w.mode with
  | exclusive =>
    rw [profile_exclusive made mode] at tagged
    cases tagged
  | shared =>
    obtain ⟨_, dut, _, _, rfl⟩ := profile_shared made mode
    exact DutHostPort.isVlanId_of_vlan? tagged

theorem Profile.buildable_between {p : Profile} (inRange : ∀ id, p.vlan = some id → IsVlanId id) (version : Version)
    (direction : Direction) (a b : BoundPort) : (p.between version direction a b).Buildable := by
  have tags : ∀ c id, p.tagAt c = some id → IsVlanId id := by
    intro c id tagged
    unfold tagAt at tagged
    split at tagged
    · exact inRange id tagged
    · cases tagged
  cases direction with
  | toDut =>
    cases pushes : version.hasPushVlan <;>
      constructor <;> simp [between, Request.forward, Request.outputPorts, pushes] <;> exact tags b
  | toHost =>
    constructor <;> simp [between, Request.forward, Request.outputPorts]
    exact tags a

theorem buildable_of_emissions {w : Wire} {es : List Emission} (emitted : w.emissions = .ok es) :
    ∀ e ∈ es, e.2.Buildable := by
  intro e member
  obtain ⟨p, direction, _, _, a, b, made, _, _, _, _, rfl⟩ := exists_between_of_emissions emitted member
  exact Profile.buildable_between (fun id => isVlanId_of_profile made) w.version direction a b

end Wire

namespace Group

/-- The tags of a broadcast are that of the host under test and the id of the group. -/
theorem buildable_tagBroadcast {g : Group} {dutVlan : Option UInt16} {ports : List UInt32} (usable : IsVlanId g.id)
    (inRange : ∀ id, dutVlan = some id → IsVlanId id) (leaving : ports ≠ []) (fromDut toHost : Bool)
    (dpid : UInt64) (input output : UInt32) :
    (g.tagBroadcast dutVlan ports fromDut toHost
      { Request.forward dpid input output broadcastPriority with ethDst := some Address.broadcastMac }).Buildable := by
  obtain ⟨port, others, rfl⟩ := List.exists_cons_of_ne_nil leaving
  cases fromDut <;> cases toHost
  case false.false =>
    constructor <;> simp [tagBroadcast, Request.forward, Request.outputPorts, usable]
  case false.true =>
    constructor <;> simp [tagBroadcast, fanOut, Request.forward, Request.outputPorts, usable]
  case true.false =>
    cases dutVlan with
    | none =>
      cases pushes : g.version.hasPushVlan <;> constructor <;>
        simp [tagBroadcast, pushId, Request.forward, Request.outputPorts, pushes, usable]
    | some vlan =>
      have tag := inRange vlan rfl
      constructor <;> simp [tagBroadcast, Request.forward, Request.outputPorts, usable, tag]
  case true.true =>
    cases dutVlan with
    | none => constructor <;> simp [tagBroadcast, fanOut, Request.forward, Request.outputPorts]
    | some vlan =>
      have tag := inRange vlan rfl
      constructor <;> simp [tagBroadcast, fanOut, Request.forward, Request.outputPorts, tag]

theorem buildable_of_emitBroadcast {g : Group} {w : Wire} {ports : List UInt32} {es : List Emission}
    (usable : IsVlanId g.id) (leaving : ports ≠ []) (emitted : g.emitBroadcast w ports = .ok es) :
    ∀ e ∈ es, e.2.Buildable := by
  intro e member
  obtain ⟨dut, hs, _, _, each⟩ := emitBroadcast_ok_iff.mp emitted
  obtain ⟨h, _, _, request⟩ := exists_left_of_forall₂ each member
  obtain ⟨a, b, _, _, same⟩ := broadcastRequest_ok_iff.mp request
  rw [same]
  exact buildable_tagBroadcast usable (fun id => DutHostPort.isVlanId_of_vlan?) leaving _ _ _ _ _

end Group

namespace Wiring

theorem hostPort_ok_iff {w : Wire} {port : UInt32} :
    hostPort w = .ok port ↔ ∃ e b, w.hostEdge = .ok e ∧ e.bound = some b ∧ b.port.number = port := by
  simp only [hostPort, mapError_eq_ok_iff, bind_eq_ok_iff, Element.require_ok_iff, pure_eq_ok, Except.ok.injEq]
  constructor
  · rintro ⟨e, edge, b, bound, same⟩
    exact ⟨e, b, edge, bound, same⟩
  · rintro ⟨e, b, edge, bound, same⟩
    exact ⟨e, edge, b, bound, same⟩

theorem hostPorts_ok_iff {ws : List Wire} {ports : List UInt32} :
    hostPorts ws = .ok ports ↔ List.Forall₂ (fun wire port => hostPort wire = .ok port) ws ports := by
  induction ws generalizing ports with
  | nil => simp [hostPorts, eq_comm]
  | cons wire ws ih =>
    simp only [hostPorts, bind_eq_ok_iff, ih, pure_eq_ok, Except.ok.injEq]
    constructor
    · rintro ⟨port, first, others, later, rfl⟩
      exact .cons first later
    · rintro (_ | ⟨first, later⟩)
      exact ⟨_, first, _, later, rfl⟩

/-- Broadcasts leave by one port for each wire of their group, in the order of the wires. -/
theorem broadcastPorts_ok_iff {w : Wiring} {g : Group} {ports : List UInt32} :
    w.broadcastPorts g = .ok ports ↔
      List.Forall₂ (fun name port => ∃ wire, w.wires.get? name = some wire ∧ hostPort wire = .ok port)
        g.wires ports := by
  simp only [broadcastPorts, members, bind_eq_ok_iff, wiresOf_ok_iff, hostPorts_ok_iff]
  generalize g.wires = names
  constructor
  · rintro ⟨ws, known, leaving⟩
    induction known generalizing ports with
    | nil =>
      cases leaving
      exact .nil
    | cons found _ ih =>
      cases leaving with
      | cons first later => exact .cons ⟨_, found, first⟩ (ih later)
  · intro each
    induction each with
    | nil => exact ⟨[], .nil, .nil⟩
    | cons first _ ih =>
      obtain ⟨wire, found, leaving⟩ := first
      obtain ⟨ws, known, later⟩ := ih
      exact ⟨wire :: ws, .cons found known, .cons leaving later⟩

/-- A group is asked for its broadcasts where the selection has the shared wires in it. -/
theorem broadcast_mem_origins_iff {w : Wiring} {g : Group} {selection : Selection} :
    Origin.broadcast g ∈ w.origins selection ↔ selection.hasShared = true ∧ g ∈ w.groups.values := by
  have notWire : Origin.broadcast g ∉ w.exclusiveWires.map fun wire => Origin.wire wire.name := by
    simp
  have ofGroups : Origin.broadcast g ∈ w.groups.values.flatMap Group.origins ↔ g ∈ w.groups.values := by
    simp [Group.origins]
  rw [origins, List.mem_append]
  cases selection.hasExclusive <;> cases selection.hasShared <;> simp [notWire, ofGroups]

/-- Where a group is asked for its broadcasts, its wires are asked too. -/
theorem wire_mem_origins {w : Wiring} {g : Group} {selection : Selection} (member : .broadcast g ∈ w.origins selection)
    {name : String} (listed : name ∈ g.wires) : .wire name ∈ w.origins selection := by
  obtain ⟨shared, inside⟩ := broadcast_mem_origins_iff.mp member
  have own : Origin.wire name ∈ g.origins := List.mem_append_left _ (List.mem_map_of_mem listed)
  rw [origins, if_pos shared]
  exact List.mem_append_right _ (List.mem_flatMap.mpr ⟨g, inside, own⟩)

theorem Emitted.buildable {w : Wiring} (sound : w.Sound) {selection : Selection}
    {parts : List (Origin × List Emission)} (emitted : w.Emitted (w.origins selection) parts) :
    ∀ e ∈ parts.flatMap Prod.snd, e.2.Buildable := by
  intro e member
  obtain ⟨⟨origin, es⟩, part, inside⟩ := List.mem_flatMap.mp member
  have given := emitted.each _ part
  cases origin with
  | wire name =>
    obtain ⟨wire, _, made⟩ := emitted?_wire.mp given
    exact Wire.buildable_of_emissions made e inside
  | broadcast g =>
    obtain ⟨first, ports, _, leaving, made⟩ := emitted?_broadcast.mp given
    have listed : Origin.broadcast g ∈ w.origins selection := emitted.inOrder ▸ List.mem_map_of_mem part
    -- Without a port a broadcast would have no output, and could not be built.
    have nonempty : ports ≠ [] := by
      intro none
      have each := broadcastPorts_ok_iff.mp leaving
      rw [none] at each
      exact g.wires_ne_nil (List.forall₂_nil_right_iff.mp each)
    exact Group.buildable_of_emitBroadcast
      (sound.groupId g (broadcast_mem_origins_iff.mp listed).2) nonempty made e inside

end Wiring

namespace Panel

/-- Every request of a panel can be built. -/
theorem buildable_of_requests {p : Panel} (sound : p.wiring.Sound) {selection : Selection} {m : RequestMap}
    (made : p.requests selection = .ok m) : ∀ switch, ∀ r ∈ m.listOf switch, r.Buildable := by
  obtain ⟨parts, emitted, rfl⟩ := requests_emitted sound made
  intro switch r member
  rw [SwitchMap.listOf_ofList, mem_valuesFor] at member
  exact emitted.buildable sound _ member

/-! ### One by one and all at once -/

/-- The rules of a list of requests are those of the requests one after the other. -/
theorem buildAll_ok_iff {version : Version} {rs : List Request} {rules : List Rule} :
    buildAll version rs = .ok rules ↔
      ∃ parts, List.Forall₂ (fun r part => build version r = .ok part) rs parts ∧ rules = parts.flatten := by
  induction rs generalizing rules with
  | nil => simp [buildAll, eq_comm]
  | cons r rs ih =>
    simp only [buildAll, bind_eq_ok_iff, ih, pure_eq_ok, Except.ok.injEq]
    constructor
    · rintro ⟨first, made, more, ⟨parts, each, rfl⟩, rfl⟩
      exact ⟨first :: parts, .cons made each, rfl⟩
    · rintro ⟨_, _ | ⟨made, each⟩, rfl⟩
      exact ⟨_, made, _, ⟨_, each, rfl⟩, rfl⟩

theorem exists_buildAll {rs : List Request} (buildable : ∀ r ∈ rs, r.Buildable) (version : Version) :
    ∃ rules, buildAll version rs = .ok rules := by
  obtain ⟨parts, each⟩ := exists_forall₂ fun r member => (buildable r member).build version
  exact ⟨parts.flatten, buildAll_ok_iff.mpr ⟨parts, each, rfl⟩⟩

theorem exists_flowModsOfAll {es : List (String × Request)} (buildable : ∀ e ∈ es, e.2.Buildable) (version : Version)
    (command : Command) : ∃ mods, flowModsOfAll version command es = .ok mods := by
  induction es with
  | nil => exact ⟨[], rfl⟩
  | cons e es ih =>
    obtain ⟨first, others⟩ := List.forall_mem_cons.mp buildable
    obtain ⟨rules, made⟩ := first.build version
    obtain ⟨mods, later⟩ := ih others
    exact ⟨_, by rw [flowModsOfAll, flowModsOf, made, later]; rfl⟩

section
variable {p : Panel} {selection : Selection}

theorem rules_ok_iff {k : RuleMap} : p.rules selection = .ok k ↔
    ∃ m, p.requests selection = .ok m ∧ m.traverse (buildAll p.wiring.version) = .ok k := by
  simp only [rules, bind_eq_ok_iff, mapError_eq_ok_iff]

/-- The rules of a panel are there as soon as its requests are. -/
theorem rules_of_requests {m : RequestMap} (sound : p.wiring.Sound) (made : p.requests selection = .ok m) :
    ∃ k, p.rules selection = .ok k ∧ k.names = m.names ∧
      ∀ switch, buildAll p.wiring.version (m.listOf switch) = .ok (k.listOf switch) := by
  have buildable := buildable_of_requests sound made
  obtain ⟨k, traversed⟩ : ∃ k, m.traverse (buildAll p.wiring.version) = .ok k :=
    SwitchMap.exists_traverse fun switch => exists_buildAll (buildable switch) p.wiring.version
  obtain ⟨names, lists⟩ := SwitchMap.listOf_traverse traversed
  refine ⟨k, by simp [rules, made, traversed, Except.mapError], names, fun switch => ?_⟩
  by_cases named : switch ∈ m.names
  · exact lists switch named
  · have absent : switch ∉ k.names := names ▸ named
    simp [SwitchMap.listOf, SwitchMap.get?_eq, named, absent, buildAll]

theorem flowMods_of_requests {m : RequestMap} (sound : p.wiring.Sound) (made : p.requests selection = .ok m)
    (command : Command) (deny : Bool) : ∃ mods, p.flowMods selection command deny = .ok mods := by
  have buildable : ∀ e ∈ m.toList, e.2.Buildable := fun e member =>
    buildable_of_requests sound made e.1 e.2 (SwitchMap.mem_toList.mp member)
  obtain ⟨mods, all⟩ := exists_flowModsOfAll buildable p.wiring.version command
  exact ⟨(if deny then p.denyMods command else []) ++ mods, by simp [flowMods, made, all, Except.mapError]⟩

end

/-- Compiling a panel and building its requests one by one from their texts come to the same. Where
    the requests are there, each is read back from its text and can be built, the rules of every switch
    are those of its request bodies in order, and there are flow modifications too. Where they are not,
    their fault is the fault of the rules and of the flow modifications. -/
theorem rules_agree {version : Version} {topology : TopologyFile} {wires : WireFile} {p : Panel}
    (read : ofFiles version topology wires = .ok p) (selection : Selection) :
    (∀ m, p.requests selection = .ok m →
      (∀ switch requests, m.get? switch = some requests → ∀ r ∈ requests,
        (∀ text, r.IsText text → Request.ofText text = .ok r) ∧ ∃ rules, build version r = .ok rules) ∧
      (∃ k, p.rules selection = .ok k ∧ k.names = m.names ∧ ∀ switch, ∃ parts,
        List.Forall₂ (fun r part => ∀ text, r.IsText text → Request.rulesOfBody version text = .ok part)
          (m.listOf switch) parts ∧ k.listOf switch = parts.flatten) ∧
      ∀ command deny, ∃ mods, p.flowMods selection command deny = .ok mods) ∧
    (∀ fault, p.rules selection = .error fault ↔
      ∃ cause, p.requests selection = .error cause ∧ fault = .definition cause) ∧
    ∀ command deny fault, p.flowMods selection command deny = .error fault ↔
      ∃ cause, p.requests selection = .error cause ∧ fault = .definition cause := by
  obtain ⟨sound, sameVersion⟩ := sound_of_ofFiles read
  cases requested : p.requests selection with
  | error cause =>
    refine ⟨nofun, fun fault => ?_, fun command deny fault => ?_⟩
    · simp [rules, requested, Except.mapError, eq_comm]
    · simp [flowMods, requested, Except.mapError, eq_comm]
  | ok m =>
    have buildable := buildable_of_requests sound requested
    obtain ⟨k, compiled, names, lists⟩ := rules_of_requests sound requested
    have sent := flowMods_of_requests sound requested
    refine ⟨?_, fun fault => by simp [compiled], fun command deny fault => ?_⟩
    · intro m same
      cases same
      refine ⟨fun switch requests found r member => ?_, ⟨k, compiled, names, fun switch => ?_⟩, sent⟩
      · have ready : r.Buildable := buildable switch r (by rw [SwitchMap.listOf, found]; exact member)
        exact ⟨fun text written => ready.ofText written.spells, ready.build version⟩
      · obtain ⟨parts, each, all⟩ := buildAll_ok_iff.mp (lists switch)
        have ready := (List.forall₂_and_left _ _).mpr ⟨buildable switch, each⟩
        refine ⟨parts, ready.imp ?_, all⟩
        rintro r part ⟨builds, built⟩ text written
        rw [builds.rulesOfBody written, ← sameVersion, built]
    · obtain ⟨mods, all⟩ := sent command deny
      simp [all]

/-- The wires over two switches: all requests survive being written and read, and the rules of both
    switches are there. -/
theorem rules_agree_trunk :
    ∃ p m k mods, ofFiles .v13 trunkFile trunkWires = .ok p ∧ p.requests .all = .ok m ∧
      (∀ requests, m.get? "s2" = some requests → ∀ r ∈ requests,
        Request.ofText (Json.encode Request.codec r) = .ok r ∧
        Request.ofText (Request.codec.write r).pretty = .ok r) ∧
      p.rules .all = .ok k ∧ k.names = ["s1", "s2"] ∧ p.flowMods .all .put true = .ok mods := by
  obtain ⟨p, read⟩ : ∃ p, ofFiles .v13 trunkFile trunkWires = .ok p := ⟨_, rfl⟩
  obtain ⟨m, made⟩ : ∃ m, p.requests .all = .ok m := by cases read; exact ⟨_, rfl⟩
  obtain ⟨texts, ⟨k, compiled, names, _⟩, sent⟩ := (rules_agree read .all).1 m made
  obtain ⟨mods, all⟩ := sent .put true
  have both : m.names = ["s1", "s2"] := by
    cases read
    cases made
    rfl
  refine ⟨p, m, k, mods, read, made, fun requests found r member => ?_, compiled, names.trans both, all⟩
  obtain ⟨back, _⟩ := texts "s2" requests found r member
  exact ⟨back _ (.inl rfl), back _ (.inr ⟨0, rfl⟩)⟩

end Panel
end PatchPanel
