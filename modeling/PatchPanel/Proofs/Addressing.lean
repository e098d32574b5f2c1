import PatchPanel.Proofs.Compiling
import PatchPanel.Proofs.Resolution

/-!
For whom the requests of a panel are. The requests under a name are served by the node of that name
(`Panel.served_of_requests`): they have its datapath id and numbers of its ports. Paths may lead through
hosts, and then this node is a host, which has no datapath id and no port numbers; so the requests are
all for switches exactly if all hops of the wires are on switches (`Panel.addressed_iff`).
-/
namespace PatchPanel

/-- The node has the datapath id and the ports of a request. -/
structure Node.Serves (n : Node) (r : Request) : Prop where
  dpid : r.dpid = n.datapathId
  inPort : ∃ name p, n.ports.get? name = some p ∧ r.inPort = some p.number
  outPort : ∀ number, r.outPort = some number → ∃ name p, n.ports.get? name = some p ∧ p.number = number

/-- A host has zero for everything that a request says of it. -/
theorem Node.Serves.on_host {kind : NodeKind} {name : String} {n : Node} {r : Request} (serves : n.Serves r)
    (stands : n.StandsAs kind name) (host : kind ≠ .switch) :
    r.dpid = 0 ∧ r.inPort = some 0 ∧ ∀ number, r.outPort = some number → number = 0 := by
  obtain ⟨noId, noNumbers⟩ := stands.host host
  obtain ⟨input, a, ofInput, inPort⟩ := serves.inPort
  refine ⟨serves.dpid.trans noId, by rw [inPort, noNumbers input a ofInput], fun number outPort => ?_⟩
  obtain ⟨output, b, ofOutput, same⟩ := serves.outPort number outPort
  rw [← same, noNumbers output b ofOutput]

/-- A request is for the node that it is emitted for. -/
def Topology.Serves (t : Topology) (e : Emission) : Prop := ∃ n, t.node? e.1 = some n ∧ n.Serves e.2

section
variable {t : Topology} {w : Wire}

/-- The node of a hop serves every request from the one port of the hop to the other. -/
theorem Wire.serves_of_hop {direction : Direction} {hs : List Hop} (found : (w.lay t).hops direction = .ok hs) {h : Hop}
    (member : h ∈ hs) {a b : BoundPort} (input : h.input.bound = some a) (output : h.output.bound = some b)
    {e : Emission} (switch : e.1 = h.node) (dpid : e.2.dpid = a.datapathId) (inPort : e.2.inPort = some a.port.number)
    (outPort : ∀ number, e.2.outPort = some number → b.port.number = number) : t.Serves e := by
  obtain ⟨ofInput, ofOutput, sameNode⟩ := mem_hops found member
  have boundInput := (bound_of_mem_lay ofInput).symm.trans input
  have boundOutput := (bound_of_mem_lay ofOutput).symm.trans output
  obtain ⟨n, p, foundNode, port, rfl⟩ := Topology.bound?_eq_some_iff.mp boundInput
  obtain ⟨n', q, again, otherPort, rfl⟩ := Topology.bound?_eq_some_iff.mp boundOutput
  rw [← sameNode, foundNode] at again
  cases again
  refine ⟨n, by rw [switch]; exact foundNode, dpid, ⟨_, p, port, inPort⟩, fun number leaves => ?_⟩
  exact ⟨_, q, otherPort, outPort number leaves⟩

theorem Wire.serves_of_emissions {es : List Emission} (emitted : (w.lay t).emissions = .ok es) :
    ∀ e ∈ es, t.Serves e := by
  intro e member
  obtain ⟨p, direction, hs, h, a, b, _, hops, inside, input, output, rfl⟩ := exists_between_of_emissions emitted member
  refine serves_of_hop hops inside input output rfl ?_ ?_ ?_
  all_goals cases direction <;> simp [Profile.between, Request.forward]

/-- The tags of a broadcast leave its switch and its input as they are, and its output too where it has one. -/
theorem Group.tagBroadcast_ports (g : Group) (dutVlan : Option UInt16) (ports : List UInt32) (fromDut toHost : Bool)
    (r : Request) :
    (g.tagBroadcast dutVlan ports fromDut toHost r).dpid = r.dpid ∧
      (g.tagBroadcast dutVlan ports fromDut toHost r).inPort = r.inPort ∧
      ∀ number, (g.tagBroadcast dutVlan ports fromDut toHost r).outPort = some number → r.outPort = some number := by
  cases fromDut <;> cases toHost <;> cases dutVlan <;> cases pushes : g.version.hasPushVlan <;>
    simp [tagBroadcast, fanOut, pushId, pushes]

theorem Group.serves_of_emitBroadcast {g : Group} {ports : List UInt32} {es : List Emission}
    (emitted : g.emitBroadcast (w.lay t) ports = .ok es) : ∀ e ∈ es, t.Serves e := by
  intro e member
  obtain ⟨dut, hs, _, hops, each⟩ := emitBroadcast_ok_iff.mp emitted
  obtain ⟨h, inside, switch, request⟩ := exists_left_of_forall₂ each member
  obtain ⟨a, b, input, output, same⟩ := broadcastRequest_ok_iff.mp request
  obtain ⟨dpid, inPort, outPort⟩ := g.tagBroadcast_ports dut.vlan? ports a.port.isDutEdge b.port.isHostEdge
    { Request.forward a.datapathId a.port.number b.port.number broadcastPriority with
      ethDst := some Address.broadcastMac }
  rw [← same] at dpid inPort outPort
  refine Wire.serves_of_hop hops inside input output switch dpid inPort fun number leaves => ?_
  exact Option.some.inj (outPort number leaves)

theorem Wiring.serves_of_emitted? {free : Wiring} {origin : Origin} {es : List Emission}
    (emitted : (free.lay t).emitted? origin = some es) : ∀ e ∈ es, t.Serves e := by
  cases origin with
  | wire name =>
    obtain ⟨wire, found, made⟩ := emitted?_wire.mp emitted
    obtain ⟨w, _, rfl⟩ := get?_lay_eq_some_iff.mp found
    exact Wire.serves_of_emissions made
  | broadcast g =>
    obtain ⟨first, _, found, _, made⟩ := emitted?_broadcast.mp emitted
    obtain ⟨w, _, rfl⟩ := get?_lay_eq_some_iff.mp found
    exact Group.serves_of_emitBroadcast made

end

namespace Panel

section
variable {version : Version} {topology : TopologyFile} {wires : WireFile} {p : Panel} {selection : Selection}
  {m : RequestMap}

/-- The requests under a name are served by the node of that name. -/
theorem served_of_requests (read : ofFiles version topology wires = .ok p) (made : p.requests selection = .ok m)
    {name : String} (named : name ∈ m.names) :
    ∃ n, p.topology.node? name = some n ∧ ∀ r ∈ m.listOf name, n.Serves r := by
  obtain ⟨free, _, _, laid⟩ := ofFiles_ok_iff.mp read
  obtain ⟨parts, emitted, rfl⟩ := requests_emitted (sound_of_ofFiles read).1 made
  have each : ∀ e ∈ parts.flatMap Prod.snd, p.topology.Serves e := by
    intro e member
    obtain ⟨part, inside, own⟩ := List.mem_flatMap.mp member
    have given := emitted.each part inside
    rw [laid] at given
    exact Wiring.serves_of_emitted? given e own
  obtain ⟨e, member, rfl⟩ := List.mem_map.mp (SwitchMap.mem_names_ofList.mp named)
  obtain ⟨n, found, _⟩ := each e member
  refine ⟨n, found, fun r listed => ?_⟩
  rw [SwitchMap.listOf_ofList, mem_valuesFor] at listed
  obtain ⟨n', again, serves⟩ := each _ listed
  cases found.symm.trans again
  exact serves

/-- The names of the requests are those of the nodes where the wires have hops. -/
theorem mem_names_of_requests (sound : p.wiring.Sound) (made : p.requests selection = .ok m)
    (name : String) : name ∈ m.names ↔ ∃ called wire, .wire called ∈ p.wiring.origins selection ∧
      p.wiring.wires.get? called = some wire ∧ name ∈ wire.hopNodes := by
  obtain ⟨parts, emitted, rfl⟩ := requests_emitted sound made
  rw [SwitchMap.mem_names_ofList, List.map_flatMap, List.mem_flatMap]
  constructor
  · rintro ⟨⟨origin, es⟩, part, inside⟩
    have listed : origin ∈ p.wiring.origins selection := emitted.inOrder ▸ List.mem_map_of_mem part
    rw [(emitted.nodes part).1] at inside
    cases origin with
    | wire called =>
      obtain ⟨wire, found, _⟩ := Wiring.emitted?_wire.mp (emitted.each _ part)
      simp only [Wiring.nodesOf, found, Option.map_some, Option.getD_some, List.mem_append, List.mem_reverse, or_self]
        at inside
      exact ⟨called, wire, listed, found, inside⟩
    | broadcast g =>
      obtain ⟨first, _, found, _, _⟩ := Wiring.emitted?_broadcast.mp (emitted.each _ part)
      simp only [Wiring.nodesOf, found, Option.map_some, Option.getD_some, List.mem_reverse] at inside
      exact ⟨g.representative, first, Wiring.wire_mem_origins listed (List.head_mem g.wires_ne_nil), found, inside⟩
  · rintro ⟨called, wire, listed, found, inside⟩
    rw [← emitted.inOrder] at listed
    obtain ⟨part, member, same⟩ := List.mem_map.mp listed
    refine ⟨part, member, ?_⟩
    rw [(emitted.nodes member).1, same]
    simp only [Wiring.nodesOf, found, Option.map_some, Option.getD_some, List.mem_append]
    exact .inl inside

/-- The requests are all for switches and served by them. -/
def Addressed (p : Panel) (m : RequestMap) : Prop :=
  ∀ name ∈ m.names, ∃ n, p.topology.switches.get? name = some n ∧ ∀ r ∈ m.listOf name, n.Serves r

/-- The wires of a selection have all their hops on switches. -/
def HopsOnSwitches (p : Panel) (selection : Selection) : Prop :=
  ∀ called wire, .wire called ∈ p.wiring.origins selection → p.wiring.wires.get? called = some wire →
    ∀ name ∈ wire.hopNodes, name ∈ p.topology.switches.names

theorem addressed_iff (read : ofFiles version topology wires = .ok p) (made : p.requests selection = .ok m) :
    p.Addressed m ↔ p.HopsOnSwitches selection := by
  have names := mem_names_of_requests (sound_of_ofFiles read).1 made
  obtain ⟨_, readTopology, _, _⟩ := ofFiles_ok_iff.mp read
  have sound := Topology.sound_of_ofFile readTopology
  constructor
  · intro addressed called wire listed found name inside
    obtain ⟨n, switch, _⟩ := addressed name ((names name).mpr ⟨called, wire, listed, found, inside⟩)
    exact Index.mem_names.mpr ⟨n, switch⟩
  · intro onSwitches name named
    obtain ⟨called, wire, listed, found, inside⟩ := (names name).mp named
    obtain ⟨n, switch⟩ := Index.mem_names.mp (onSwitches called wire listed found name inside)
    obtain ⟨n', again, serves⟩ := served_of_requests read made named
    -- No host has the name of a switch, so the node that serves the requests is this switch.
    cases (sound.switch_iff.mp switch).1.symm.trans again
    exact ⟨n, switch, serves⟩

/-- Every flow modification is for the switch and the datapath id of a request. -/
theorem exists_request_of_flowMod {command : Command} {es : List Emission} {mods : List FlowMod}
    (made : flowModsOfAll version command es = .ok mods) {mod : FlowMod} (member : mod ∈ mods) :
    ∃ e ∈ es, mod.switch = e.1 ∧ mod.dpid = e.2.dpid := by
  induction es generalizing mods with
  | nil =>
    cases made
    cases member
  | cons e es ih =>
    simp only [flowModsOfAll, bind_eq_ok_iff, pure_eq_ok, Except.ok.injEq] at made
    obtain ⟨first, own, rest, later, rfl⟩ := made
    rcases List.mem_append.mp member with here | after
    · obtain ⟨rules, _, rfl⟩ := map_eq_ok_iff.mp own
      obtain ⟨rule, _, rfl⟩ := List.mem_map.mp here
      exact ⟨e, List.mem_cons_self, rfl, rfl⟩
    · obtain ⟨f, inside, same⟩ := ih later after
      exact ⟨f, List.mem_cons_of_mem _ inside, same⟩

/-- Where the requests are all for switches, so are the flow modifications, and each switch that has one has a
    dropping rule if these are asked for. -/
theorem flowMods_of_addressed (sound : p.topology.Sound) (made : p.requests selection = .ok m)
    (addressed : p.Addressed m) {command : Command} {deny : Bool} {mods : List FlowMod}
    (sent : p.flowMods selection command deny = .ok mods)
    {mod : FlowMod} (member : mod ∈ mods) :
    ∃ n, p.topology.switches.get? mod.switch = some n ∧ mod.dpid = n.datapathId ∧
      (deny = true → ⟨mod.switch, mod.dpid, command, .defaultDeny⟩ ∈ mods) := by
  simp only [flowMods, made, bind_eq_ok_iff, mapError_eq_ok_iff, Except.ok.injEq, pure_eq_ok] at sent
  obtain ⟨_, rfl, own, built, rfl⟩ := sent
  have denies : ∀ name n, p.topology.switches.get? name = some n →
      (⟨name, n.datapathId, command, .defaultDeny⟩ : FlowMod) ∈ p.denyMods command := by
    intro name n found
    refine List.mem_map.mpr ⟨n, Index.mem_values.mpr ⟨name, found⟩, ?_⟩
    rw [(sound.switches name n found).called]
  have real : ∃ n, p.topology.switches.get? mod.switch = some n ∧ mod.dpid = n.datapathId := by
    rcases List.mem_append.mp member with denied | requested
    · split at denied
      · obtain ⟨n, value, rfl⟩ := List.mem_map.mp denied
        obtain ⟨name, found⟩ := Index.mem_values.mp value
        refine ⟨n, ?_, rfl⟩
        rwa [(sound.switches name n found).called]
      · cases denied
    · obtain ⟨e, inside, switch, dpid⟩ := exists_request_of_flowMod built requested
      have listed : e.2 ∈ m.listOf e.1 := SwitchMap.mem_toList.mp inside
      obtain ⟨n, found, serves⟩ := addressed e.1 (SwitchMap.mem_names_of_mem_listOf listed)
      refine ⟨n, by rw [switch, found], ?_⟩
      rw [dpid, (serves e.2 listed).dpid]
  obtain ⟨n, found, dpid⟩ := real
  refine ⟨n, found, dpid, fun asked => List.mem_append_left _ ?_⟩
  rw [if_pos asked, dpid]
  exact denies mod.switch n found

end

/-- For whom the requests of a panel are: the requests under a name are for the node of that name, which is a
    switch or else a host, and then they say zero of it. They are all for switches exactly if all hops are on
    switches. If they are, every flow modification is for a switch too, and with dropping rules each of these
    switches has one. -/
theorem requests_addressed {version : Version} {topology : TopologyFile} {wires : WireFile} {p : Panel}
    {selection : Selection} {m : RequestMap} (read : ofFiles version topology wires = .ok p)
    (made : p.requests selection = .ok m) :
    (∀ name ∈ m.names, ∃ n, p.topology.node? name = some n ∧ n.name = name ∧ (∀ r ∈ m.listOf name, n.Serves r) ∧
      (p.topology.switches.get? name = some n ∨
        n.kind ≠ .switch ∧ ∀ r ∈ m.listOf name,
          r.dpid = 0 ∧ r.inPort = some 0 ∧ ∀ number, r.outPort = some number → number = 0)) ∧
    (p.Addressed m ↔ p.HopsOnSwitches selection) ∧
    (p.HopsOnSwitches selection → ∀ command deny mods, p.flowMods selection command deny = .ok mods →
      ∀ mod ∈ mods, ∃ n, p.topology.switches.get? mod.switch = some n ∧ mod.dpid = n.datapathId ∧
        (deny = true → ⟨mod.switch, mod.dpid, command, .defaultDeny⟩ ∈ mods)) := by
  obtain ⟨_, readTopology, _, _⟩ := ofFiles_ok_iff.mp read
  have sound := Topology.sound_of_ofFile readTopology
  have exactly := addressed_iff read made
  refine ⟨fun name named => ?_, exactly, fun onSwitches command deny mods sent mod member => ?_⟩
  · obtain ⟨n, found, serves⟩ := served_of_requests read made named
    have stands := sound.standsAs found
    refine ⟨n, found, stands.called, serves, ?_⟩
    by_cases switch : n.kind = .switch
    · exact .inl (sound.switch_iff.mpr ⟨found, switch⟩)
    · exact .inr ⟨switch, fun r listed => (serves r listed).on_host stands switch⟩
  · exact flowMods_of_addressed sound made (exactly.mpr onSwitches) sent member

/-- The wires over two switches have all their hops there, and so each of the two has a dropping rule and is
    sent its own datapath id. -/
theorem requests_addressed_trunk :
    ∃ p m mods, ofFiles .v13 trunkFile trunkWires = .ok p ∧ p.requests .all = .ok m ∧ p.HopsOnSwitches .all ∧
      p.Addressed m ∧ p.flowMods .all .put true = .ok mods ∧ ∀ mod ∈ mods, ∃ n,
        p.topology.switches.get? mod.switch = some n ∧ mod.dpid = n.datapathId ∧
        ⟨mod.switch, mod.dpid, .put, .defaultDeny⟩ ∈ mods := by
  obtain ⟨p, read⟩ : ∃ p, ofFiles .v13 trunkFile trunkWires = .ok p := ⟨_, rfl⟩
  obtain ⟨m, made⟩ : ∃ m, p.requests .all = .ok m := by cases read; exact ⟨_, rfl⟩
  obtain ⟨mods, sent⟩ := flowMods_of_requests (sound_of_ofFiles read).1 made .put true
  obtain ⟨each, exactly, deny⟩ := requests_addressed read made
  have names : m.names = ["s1", "s2"] := by
    cases read
    cases made
    rfl
  have addressed : p.Addressed m := by
    intro name named
    obtain ⟨n, found, _, serves, switch | ⟨host, _⟩⟩ := each name named
    · exact ⟨n, switch, serves⟩
    · rw [names, List.mem_pair] at named
      cases read
      rcases named with rfl | rfl <;> cases found <;> exact absurd rfl host
  refine ⟨p, m, mods, read, made, exactly.mp addressed, addressed, sent, fun mod member => ?_⟩
  obtain ⟨n, found, dpid, denied⟩ := deny (exactly.mp addressed) .put true mods sent mod member
  exact ⟨n, found, dpid, denied rfl⟩

end Panel

/-! ### A path through a host -/

/-- A switch between a test host and a host under test that is linked to it by two ports. -/
def throughFile : TopologyFile where
  switches := some (.ofList [("s", ⟨1, .ofList [
    ("p1", .object [("number", .natural 1)]), ("p2", .object [("number", .natural 2)]),
    ("p3", .object [("number", .natural 3)])]⟩)])
  testHosts := some (.ofList [("h", ⟨.ofList [("e",
    .object [("mac-addr", .string "0a:00:00:00:00:01"), ("ip-addr", .string "192.168.2.101/24")])]⟩)])
  dutHosts := some (.ofList [("d", ⟨.ofList [("e0", .object []), ("e1", .object [])]⟩)])
  links := some [⟨⟨"h", "e"⟩, ⟨"s", "p1"⟩⟩, ⟨⟨"s", "p2"⟩, ⟨"d", "e0"⟩⟩, ⟨⟨"d", "e1"⟩, ⟨"s", "p3"⟩⟩]

/-- An exclusive wire whose path goes on through the host under test. -/
def throughWires : WireFile where
  wires := some (.ofList [("x", {
    mode := some "exclusive"
    path := some [⟨"s", "p1"⟩, ⟨"s", "p2"⟩, ⟨"d", "e0"⟩, ⟨"d", "e1"⟩]
    testHostPort := some ⟨"h", "e"⟩
    dutHostPort := some ⟨"d", "e1"⟩ })])
  groups := some .empty

/-- A wire that leads through a host has requests for this host, which is no switch: from port zero to port
    zero of the datapath id zero. -/
theorem Panel.not_addressed_through :
    ∃ p m, Panel.ofFiles .v13 throughFile throughWires = .ok p ∧ p.requests .exclusive = .ok m ∧
      m.names = ["d", "s"] ∧ m.listOf "d" = [.forward 0 0 0 exclusivePriority, .forward 0 0 0 exclusivePriority] ∧
      p.topology.switches.get? "d" = none ∧ ¬ p.Addressed m := by
  obtain ⟨p, read⟩ : ∃ p, Panel.ofFiles .v13 throughFile throughWires = .ok p := ⟨_, rfl⟩
  obtain ⟨m, made⟩ : ∃ m, p.requests .exclusive = .ok m := by cases read; exact ⟨_, rfl⟩
  have names : m.names = ["d", "s"] := by
    cases read
    cases made
    rfl
  have noSwitch : p.topology.switches.get? "d" = none := by
    cases read
    rfl
  refine ⟨p, m, read, made, names, ?_, noSwitch, fun addressed => ?_⟩
  · cases read
    cases made
    rfl
  · obtain ⟨n, switch, _⟩ := addressed "d" (by rw [names]; exact List.mem_cons_self)
    rw [noSwitch] at switch
    cases switch

end PatchPanel
