import PatchPanel.Proofs.Compiling
import PatchPanel.Proofs.Faults.Wire
import PatchPanel.Proofs.Resolution
import Mathlib.Data.List.Chain

/-!
Which wires are compiled, and which of them are cables. A wire is compiled if its path has hops between ports
that exist, and on a shared wire if its ends face hosts and its two hosts are there (`Wire.Accepted`): these are the
conditions on a laid wire, read off the topology (`Wire.accepted_iff_isCompilable`). Between these ends nothing asks for
links, nor whether the hosts are those at the ends. So the hops of a compiled wire are a cable between its two hosts
where its path follows the links from the one to the other (`Panel.wires_accepted`), and a path that does not is
compiled as well.
-/
namespace PatchPanel

/-! ### Paths that follow links -/

/-- The two elements of the path that a hop takes up. -/
def Hop.ends (h : Hop) : List Element := [h.input, h.output]

/-- Every hop is on one node, and the next hop is on another node. -/
structure Onward (hs : List Hop) : Prop where
  oneNode : ∀ h ∈ hs, h.input.endpoint.node = h.output.endpoint.node
  leaves : hs.IsChain fun h next => h.output.endpoint.node ≠ next.input.endpoint.node

theorem Onward.tail {h : Hop} {hs : List Hop} (onward : Onward (h :: hs)) : Onward hs :=
  ⟨fun next member => onward.oneNode next (List.mem_cons_of_mem h member), onward.leaves.tail⟩

theorem hopsOf_ends (h : Hop) (sameNode : h.input.endpoint.node = h.output.endpoint.node) (rest : List Element) :
    hopsOf (h.ends ++ rest) = h :: hopsOf (h.output :: rest) := by
  simp [Hop.ends, hopsOf, sameNode]

theorem hopsOf_output_ends (h next : Hop) (rest : List Element) :
    hopsOf (h.output :: (next.ends ++ rest)) =
      if h.output.endpoint.node = next.input.endpoint.node
      then ⟨h.output, next.input⟩ :: hopsOf (next.ends ++ rest) else hopsOf (next.ends ++ rest) := rfl

/-- A path of hops that lead from node to node has these hops. -/
theorem hopsOf_flatMap {hs : List Hop} (onward : Onward hs) : hopsOf (hs.flatMap Hop.ends) = hs := by
  induction hs with
  | nil => rfl
  | cons h hs ih =>
    have here := onward.oneNode h List.mem_cons_self
    rw [List.flatMap_cons, hopsOf_ends h here]
    cases hs with
    | nil => rfl
    | cons next hs =>
      have differ := (List.isChain_cons_cons.mp onward.leaves).1
      rw [List.flatMap_cons, hopsOf_output_ends, if_neg differ, ← List.flatMap_cons, ih onward.tail]

theorem length_le_hopsOf_flatMap {hs : List Hop}
    (oneNode : ∀ h ∈ hs, h.input.endpoint.node = h.output.endpoint.node) :
    hs.length ≤ (hopsOf (hs.flatMap Hop.ends)).length := by
  induction hs with
  | nil => exact Nat.zero_le _
  | cons h hs ih =>
    obtain ⟨here, others⟩ := List.forall_mem_cons.mp oneNode
    have later := ih others
    rw [List.flatMap_cons, hopsOf_ends h here, List.length_cons, List.length_cons]
    cases hs with
    | nil => simp
    | cons next hs =>
      rw [List.flatMap_cons, hopsOf_output_ends]
      split
      · rw [← List.flatMap_cons, List.length_cons]
        exact Nat.le_succ_of_le (Nat.succ_le_succ later)
      · rw [← List.flatMap_cons]
        exact Nat.succ_le_succ later

/-- Where the elements of a path are those of its hops, the hops lead from node to node. -/
theorem onward_of_hopsOf {hs : List Hop} (same : hopsOf (hs.flatMap Hop.ends) = hs) : Onward hs := by
  have oneNode : ∀ h ∈ hs, h.input.endpoint.node = h.output.endpoint.node := by
    intro h member
    rw [← same] at member
    exact (mem_hopsOf member).2.2
  refine ⟨oneNode, ?_⟩
  induction hs with
  | nil => exact List.isChain_nil
  | cons h hs ih =>
    obtain ⟨here, others⟩ := List.forall_mem_cons.mp oneNode
    cases hs with
    | nil => exact List.isChain_singleton h
    | cons next hs =>
      rw [List.flatMap_cons, hopsOf_ends h here, List.flatMap_cons, hopsOf_output_ends] at same
      split at same
      · -- One more hop between the two would make the path have too many.
        have tooMany := length_le_hopsOf_flatMap others
        have count := congrArg List.length same
        rw [← List.flatMap_cons] at count
        simp only [List.length_cons] at tooMany count
        omega
      · next differ =>
        rw [← List.flatMap_cons] at same
        exact List.isChain_cons_cons.mpr ⟨differ, ih (List.cons.inj same).2 others⟩

namespace Topology

/-- The hops are a cable between two ports: their outer ports are linked to the two, and the port that one hop
    leaves by is linked to the port by which the next one enters. -/
structure Cable (t : Topology) (host dut : Endpoint) (hs : List Hop) : Prop where
  first : ∃ h, hs.head? = some h ∧ t.links.farEnd? host = some h.input.endpoint
  between : hs.IsChain fun h next => t.links.farEnd? next.input.endpoint = some h.output.endpoint
  last : ∃ h, hs.getLast? = some h ∧ t.links.farEnd? dut = some h.output.endpoint

/-- The path leads along links from the one port to the other, in and out of one node after another. -/
def Traces (t : Topology) (host dut : Endpoint) (path : List Element) : Prop :=
  ∃ hs, path = hs.flatMap Hop.ends ∧ Onward hs ∧ t.Cable host dut hs

theorem traces_iff {t : Topology} {host dut : Endpoint} {path : List Element} :
    t.Traces host dut path ↔ t.Cable host dut (hopsOf path) ∧ path = (hopsOf path).flatMap Hop.ends := by
  constructor
  · rintro ⟨hs, rfl, onward, cable⟩
    rw [hopsOf_flatMap onward]
    exact ⟨cable, rfl⟩
  · rintro ⟨cable, same⟩
    exact ⟨hopsOf path, same, onward_of_hopsOf (congrArg hopsOf same.symm), cable⟩

/-! ### What ports face -/

/-- The endpoint is a port of a node of the kind. -/
def IsPortOf (t : Topology) (kind : NodeKind) (e : Endpoint) : Prop :=
  ∃ n p, t.node? e.node = some n ∧ n.ports.get? e.port = some p ∧ n.kind = kind

/-- The endpoint is a port of a switch, and its link leads to a node of the kind. -/
def Faces (t : Topology) (kind : NodeKind) (e : Endpoint) : Prop :=
  t.IsPortOf .switch e ∧ ∃ far n, t.links.farEnd? e = some far ∧ t.node? far.node = some n ∧ n.kind = kind

section
variable {file : TopologyFile} {t : Topology} {e : Endpoint} {b : BoundPort}

theorem bound?_isSome_iff : (t.bound? e).isSome ↔ (t.port? e).isSome := by
  unfold bound? port?
  cases t.node? e.node <;> simp

/-- What a bound port is for tells the kind of its node and of the node that it faces. -/
theorem role_iff (read : ofFile file = .ok t) (bound : t.bound? e = some b) :
    (b.port.isHostEdge = true ↔ t.Faces .testHost e) ∧ (b.port.isDutEdge = true ↔ t.Faces .dutHost e) ∧
      (b.port.testHost?.isSome ↔ t.IsPortOf .testHost e) ∧ (b.port.dutHost?.isSome ↔ t.IsPortOf .dutHost e) := by
  obtain ⟨n, p, found, port, rfl⟩ := bound?_eq_some_iff.mp bound
  obtain ⟨far, m, linked, there, fits⟩ := exists_fits read found port
  have isPortOf : ∀ kind, t.IsPortOf kind e ↔ n.kind = kind := by
    intro kind
    simp [IsPortOf, found, port]
  have faces : ∀ kind, t.Faces kind e ↔ n.kind = .switch ∧ m.kind = kind := by
    intro kind
    simp [Faces, isPortOf, linked, there]
  rw [faces, faces, isPortOf, isPortOf]
  cases role : p.role with
  | switch facing number =>
    rw [role] at fits
    obtain ⟨ofSwitch, rfl⟩ := fits
    cases facing : m.kind <;>
      simp [Port.isHostEdge, Port.isDutEdge, Port.testHost?, Port.dutHost?, role, ofSwitch, facing]
  | testHost a =>
    rw [role] at fits
    simp [Port.isHostEdge, Port.isDutEdge, Port.testHost?, Port.dutHost?, role, fits.1]
  | dutHost a =>
    rw [role] at fits
    simp [Port.isHostEdge, Port.isDutEdge, Port.testHost?, Port.dutHost?, role, fits.1]

/-- An endpoint that is a port of some node is bound to a port of the sort that tells so. -/
theorem exists_bound_iff (sort : Port → Bool) {P : Prop} (isPort : P → ∃ kind, t.IsPortOf kind e)
    (tells : ∀ b, t.bound? e = some b → (sort b.port = true ↔ P)) :
    (∃ b, t.bound? e = some b ∧ sort b.port = true) ↔ P := by
  constructor
  · rintro ⟨b, bound, is⟩
    exact (tells b bound).mp is
  · intro holds
    obtain ⟨_, n, p, found, port, _⟩ := isPort holds
    have bound := bound?_eq_some_iff.mpr ⟨n, p, found, port, rfl⟩
    exact ⟨_, bound, (tells _ bound).mpr holds⟩

theorem exists_hostEdge_iff (read : ofFile file = .ok t) :
    (∃ b, t.bound? e = some b ∧ b.port.isHostEdge = true) ↔ t.Faces .testHost e :=
  exists_bound_iff Port.isHostEdge (fun faces => ⟨_, faces.1⟩) fun _ bound => (role_iff read bound).1

theorem exists_dutEdge_iff (read : ofFile file = .ok t) :
    (∃ b, t.bound? e = some b ∧ b.port.isDutEdge = true) ↔ t.Faces .dutHost e :=
  exists_bound_iff Port.isDutEdge (fun faces => ⟨_, faces.1⟩) fun _ bound => (role_iff read bound).2.1

theorem exists_testHost_iff (read : ofFile file = .ok t) :
    (∃ b, t.bound? e = some b ∧ b.port.testHost?.isSome) ↔ t.IsPortOf .testHost e :=
  exists_bound_iff (fun p => p.testHost?.isSome) (fun isPort => ⟨_, isPort⟩) fun _ bound =>
    (role_iff read bound).2.2.1

theorem exists_dutHost_iff (read : ofFile file = .ok t) :
    (∃ b, t.bound? e = some b ∧ b.port.dutHost?.isSome) ↔ t.IsPortOf .dutHost e :=
  exists_bound_iff (fun p => p.dutHost?.isSome) (fun isPort => ⟨_, isPort⟩) fun _ bound =>
    (role_iff read bound).2.2.2

end
end Topology

/-! ### Wires that are accepted -/

/-- What it takes that a wire is compiled, in the terms of the topology. -/
structure Wire.Accepted (t : Topology) (w : Wire) : Prop where
  hops : hopsOf w.path ≠ []
  ports : ∀ h ∈ hopsOf w.path, (t.port? h.input.endpoint).isSome ∧ (t.port? h.output.endpoint).isSome
  ends : w.mode = .shared → ∃ head last, w.path.head? = some head ∧ w.path.getLast? = some last ∧
    (t.Faces .testHost head.endpoint ∧ t.Faces .dutHost last.endpoint ∨
      t.Faces .dutHost head.endpoint ∧ t.Faces .testHost last.endpoint)
  hosts : w.mode = .shared → t.IsPortOf .testHost w.testHost.endpoint ∧ t.IsPortOf .dutHost w.dutHost.endpoint

namespace Wire

section
variable {file : TopologyFile} {t : Topology} {w : Wire}

/-- A shared wire is read from a test host to a host under test. -/
theorem ends_of_isReversed (read : Topology.ofFile file = .ok t) (shared : (w.lay t).mode = .shared) {reversed : Bool}
    (side : (w.lay t).isReversed .toDut = .ok reversed) :
    ∃ head last, ((w.lay t).readPath reversed).head? = some head ∧
      ((w.lay t).readPath reversed).getLast? = some last ∧ t.Faces .testHost head.endpoint ∧
      t.Faces .dutHost last.endpoint := by
  simp only [isReversed, shared, map_eq_ok_iff] at side
  obtain ⟨starts, side, rfl⟩ := side
  obtain ⟨head, last, a, z, first, final, boundHead, boundLast, host, dut⟩ := startsAtHost_ok_iff.mp side
  rw [bound_of_mem_lay (List.mem_of_mem_head? first)] at boundHead
  rw [bound_of_mem_lay (List.mem_of_mem_getLast? final)] at boundLast
  cases starts with
  | true =>
    exact ⟨head, last, first, final, (Topology.exists_hostEdge_iff read).mp ⟨a, boundHead, host⟩,
      (Topology.exists_dutEdge_iff read).mp ⟨z, boundLast, dut⟩⟩
  | false =>
    refine ⟨last, head, ?_, ?_, (Topology.exists_hostEdge_iff read).mp ⟨z, boundLast, host⟩,
      (Topology.exists_dutEdge_iff read).mp ⟨a, boundHead, dut⟩⟩
    · rw [Bool.not_false, readPath, if_pos rfl, List.head?_reverse, final]
    · rw [Bool.not_false, readPath, if_pos rfl, List.getLast?_reverse, first]

/-- The ports of all hops are in the topology exactly if neighbours on one node are bound. -/
theorem ports_iff_bound : (∀ h ∈ hopsOf (w.lay t).path,
      (t.port? h.input.endpoint).isSome ∧ (t.port? h.output.endpoint).isSome) ↔
    ∀ a b, [a, b] <:+: (w.lay t).path → a.endpoint.node = b.endpoint.node → a.bound.isSome ∧ b.bound.isSome := by
  have known : ∀ e ∈ (w.lay t).path, e.bound.isSome ↔ (t.port? e.endpoint).isSome := by
    intro e member
    rw [bound_of_mem_lay member, Topology.bound?_isSome_iff]
  constructor
  · intro ports a b neighbours same
    rw [known a (neighbours.subset (by simp)), known b (neighbours.subset (by simp))]
    exact ports ⟨a, b⟩ (mem_hopsOf_iff.mpr ⟨neighbours, same⟩)
  · rintro bound ⟨a, b⟩ member
    obtain ⟨neighbours, same⟩ := mem_hopsOf_iff.mp member
    rw [← known a (neighbours.subset (by simp)), ← known b (neighbours.subset (by simp))]
    exact bound a b neighbours same

/-- The ends of the path face hosts in the topology exactly if they are bound to ports at the edges. -/
theorem ends_iff_edges (read : Topology.ofFile file = .ok t) :
    (∃ head last, (w.lay t).path.head? = some head ∧ (w.lay t).path.getLast? = some last ∧
      (t.Faces .testHost head.endpoint ∧ t.Faces .dutHost last.endpoint ∨
        t.Faces .dutHost head.endpoint ∧ t.Faces .testHost last.endpoint)) ↔
    ∃ head last a z, (w.lay t).path.head? = some head ∧ (w.lay t).path.getLast? = some last ∧
      head.bound = some a ∧ last.bound = some z ∧ (a.port.isHostEdge = true ∧ z.port.isDutEdge = true ∨
        a.port.isDutEdge = true ∧ z.port.isHostEdge = true) := by
  refine exists_congr fun head => exists_congr fun last => ?_
  simp only [← Topology.exists_hostEdge_iff read, ← Topology.exists_dutEdge_iff read]
  constructor
  · rintro ⟨first, final, facing⟩
    rw [bound_of_mem_lay (List.mem_of_mem_head? first), bound_of_mem_lay (List.mem_of_mem_getLast? final)]
    rcases facing with ⟨⟨a, boundHead, host⟩, z, boundLast, dut⟩ | ⟨⟨a, boundHead, dut⟩, z, boundLast, host⟩
    · exact ⟨a, z, first, final, boundHead, boundLast, .inl ⟨host, dut⟩⟩
    · exact ⟨a, z, first, final, boundHead, boundLast, .inr ⟨dut, host⟩⟩
  · rintro ⟨a, z, first, final, boundHead, boundLast, facing⟩
    rw [bound_of_mem_lay (List.mem_of_mem_head? first)] at boundHead
    rw [bound_of_mem_lay (List.mem_of_mem_getLast? final)] at boundLast
    refine ⟨first, final, ?_⟩
    rcases facing with ⟨host, dut⟩ | ⟨dut, host⟩
    · exact .inl ⟨⟨a, boundHead, host⟩, z, boundLast, dut⟩
    · exact .inr ⟨⟨a, boundHead, dut⟩, z, boundLast, host⟩

/-- A laid wire is accepted exactly if it is compilable. -/
theorem accepted_iff_isCompilable (read : Topology.ofFile file = .ok t) :
    (w.lay t).Accepted t ↔ (w.lay t).IsCompilable := by
  have hops : hopsOf (w.lay t).path ≠ [] ↔
      ∃ a b, [a, b] <:+: (w.lay t).path ∧ a.endpoint.node = b.endpoint.node :=
    hopsOf_eq_nil_iff.not.trans nodePairs_ne_nil_iff
  have testHost : t.IsPortOf .testHost (w.lay t).testHost.endpoint ↔
      ∃ b, (w.lay t).testHost.bound = some b ∧ b.port.testHost?.isSome := (Topology.exists_testHost_iff read).symm
  have dutHost : t.IsPortOf .dutHost (w.lay t).dutHost.endpoint ↔
      ∃ b, (w.lay t).dutHost.bound = some b ∧ b.port.dutHost?.isSome := (Topology.exists_dutHost_iff read).symm
  constructor
  · rintro ⟨some, ports, ends, hosts⟩
    exact ⟨hops.mp some, ports_iff_bound.mp ports, fun shared => (ends_iff_edges read).mp (ends shared),
      fun shared => testHost.mp (hosts shared).1, fun shared => dutHost.mp (hosts shared).2⟩
  · rintro ⟨pair, bound, edges, ofTestHost, ofDutHost⟩
    exact ⟨hops.mpr pair, ports_iff_bound.mpr bound, fun shared => (ends_iff_edges read).mpr (edges shared),
      fun shared => ⟨testHost.mpr (ofTestHost shared), dutHost.mpr (ofDutHost shared)⟩⟩

/-- A wire is compiled exactly if it is accepted. -/
theorem exists_emissions_iff (read : Topology.ofFile file = .ok t) :
    (∃ es, (w.lay t).emissions = .ok es) ↔ (w.lay t).Accepted t := by
  rw [accepted_iff_isCompilable read, ← exists_requests_lay_iff, requests_eq]
  simp only [map_eq_ok_iff]
  constructor
  · rintro ⟨es, emitted⟩
    exact ⟨_, es, emitted, rfl⟩
  · rintro ⟨_, es, emitted, _⟩
    exact ⟨es, emitted⟩

end
end Wire

/-! ### Panels that are compiled -/

namespace Wiring

section
variable {w : Wiring} {g : Group}

theorem Sound.exists_emit_toHost (sound : w.Sound) (member : g ∈ w.groups.values) {name : String}
    (listed : name ∈ g.wires) {es : List Emission} (given : w.emitted? (.wire name) = some es) :
    ∃ wire back, w.wires.get? name = some wire ∧ wire.mode = .shared ∧ wire.emit .toHost = .ok back := by
  obtain ⟨wire, found, made⟩ := emitted?_wire.mp given
  obtain ⟨_, again, shared⟩ := sound.groupWires g member name listed
  cases found.symm.trans again
  obtain ⟨_, _, back, _, backwards, _⟩ := Wire.emissions_ok_iff.mp made
  exact ⟨wire, back, found, shared, backwards⟩

theorem Sound.exists_broadcastPorts (sound : w.Sound) (member : g ∈ w.groups.values)
    (each : ∀ name ∈ g.wires, ∃ es, w.emitted? (.wire name) = some es) : ∃ ports, w.broadcastPorts g = .ok ports := by
  simp only [broadcastPorts_ok_iff]
  refine exists_forall₂ fun name listed => ?_
  obtain ⟨_, given⟩ := each name listed
  obtain ⟨wire, _, found, shared, emitted⟩ := sound.exists_emit_toHost member listed given
  obtain ⟨_, _, hops, _, _⟩ := Wire.emit_ok_iff.mp emitted
  obtain ⟨starts, side, _⟩ := Wire.hops_ok_iff.mp hops
  simp only [Wire.isReversed, shared] at side
  obtain ⟨e, b, edge, bound⟩ := Wire.exists_hostEdge side
  exact ⟨_, wire, found, hostPort_ok_iff.mpr ⟨e, b, edge, bound, rfl⟩⟩

/-- A group has broadcasts as soon as all of its wires are compiled. -/
theorem Sound.exists_broadcasts (sound : w.Sound) (member : g ∈ w.groups.values)
    (each : ∀ name ∈ g.wires, ∃ es, w.emitted? (.wire name) = some es) :
    ∃ es, w.emitted? (.broadcast g) = some es := by
  obtain ⟨ports, leaving⟩ := sound.exists_broadcastPorts member each
  have carrier : g.representative ∈ g.wires := List.head_mem g.wires_ne_nil
  obtain ⟨_, given⟩ := each g.representative carrier
  obtain ⟨first, _, found, shared, emitted⟩ := sound.exists_emit_toHost member carrier given
  obtain ⟨hs, p, hops, made, requests⟩ := Wire.emit_ok_iff.mp emitted
  obtain ⟨_, dut, _, ofDut, _⟩ := Wire.profile_shared made shared
  have broadcasts : ∀ h ∈ hs, ∃ e : Emission, e.1 = h.node ∧ g.broadcastRequest dut.vlan? ports h = .ok e.2 := by
    intro h inside
    obtain ⟨_, _, _, request⟩ := exists_left_of_forall₂ requests.flip inside
    obtain ⟨a, b, input, output, _⟩ := Wire.Profile.request_ok_iff.mp request
    exact ⟨(h.node, _), rfl, Group.broadcastRequest_ok_iff.mpr ⟨a, b, input, output, rfl⟩⟩
  obtain ⟨fs, all⟩ := exists_forall₂ broadcasts
  exact ⟨fs, emitted?_broadcast.mpr
    ⟨first, ports, found, leaving, Group.emitBroadcast_ok_iff.mpr ⟨dut, hs, ofDut, hops, all⟩⟩⟩

end

end Wiring

namespace Panel

/-- A selection has requests exactly if all of its wires are compiled. -/
theorem exists_requests_iff {p : Panel} (sound : p.wiring.Sound) {selection : Selection} :
    (∃ m, p.requests selection = .ok m) ↔ ∀ name w, p.wiring.wires.get? name = some w →
      .wire name ∈ p.wiring.origins selection → ∃ es, w.emissions = .ok es := by
  constructor
  · rintro ⟨m, made⟩ name w found asked
    obtain ⟨es, emitted, _⟩ := requests_of_wire sound made found asked
    exact ⟨es, emitted⟩
  · intro each
    have ofWire : ∀ name, .wire name ∈ p.wiring.origins selection →
        ∃ es, p.wiring.emitted? (.wire name) = some es := by
      intro name asked
      obtain ⟨w, found⟩ := sound.exists_wire asked
      obtain ⟨es, emitted⟩ := each name w found asked
      exact ⟨es, Wiring.emitted?_wire.mpr ⟨w, found, emitted⟩⟩
    have ofOrigin : ∀ origin ∈ p.wiring.origins selection, ∃ es, p.wiring.emitted? origin = some es := by
      intro origin asked
      cases origin with
      | wire name => exact ofWire name asked
      | broadcast g =>
        exact sound.exists_broadcasts (Wiring.broadcast_mem_origins_iff.mp asked).2
          fun name listed => ofWire name (Wiring.wire_mem_origins asked listed)
    obtain ⟨parts, emitted⟩ := Wiring.exists_emitted ofOrigin
    exact ⟨_, requests_of_emitted sound emitted⟩

/-- A selection has requests exactly if all its wires are accepted. The hops of an accepted wire are those of its
    path, which is read from a test host to a host under test if the wire is shared. They are a cable between
    the two hosts of the wire, and take up the whole path, exactly if the path leads along links from the one
    to the other. -/
theorem wires_accepted {version : Version} {topology : TopologyFile} {wires : WireFile} {p : Panel}
    (read : ofFiles version topology wires = .ok p) (selection : Selection) :
    ((∃ m, p.requests selection = .ok m) ↔ ∀ name w, p.wiring.wires.get? name = some w →
      .wire name ∈ p.wiring.origins selection → w.Accepted p.topology) ∧
    ∀ name w, p.wiring.wires.get? name = some w → w.Accepted p.topology → ∀ direction, ∃ reversed hs,
      w.isReversed direction = .ok reversed ∧ w.hops direction = .ok hs ∧ hs ≠ [] ∧
      hs = hopsOf (w.readPath reversed) ∧
      (w.mode = .shared → direction = .toDut → ∃ head last, (w.readPath reversed).head? = some head ∧
        (w.readPath reversed).getLast? = some last ∧ p.topology.Faces .testHost head.endpoint ∧
        p.topology.Faces .dutHost last.endpoint) ∧
      (p.topology.Traces w.testHost.endpoint w.dutHost.endpoint (w.readPath reversed) ↔
        p.topology.Cable w.testHost.endpoint w.dutHost.endpoint hs ∧ w.readPath reversed = hs.flatMap Hop.ends) := by
  obtain ⟨free, readTopology, _, laid⟩ := ofFiles_ok_iff.mp read
  have accepted : ∀ name w, p.wiring.wires.get? name = some w →
      ((∃ es, w.emissions = .ok es) ↔ w.Accepted p.topology) := by
    intro name w found
    rw [laid] at found
    obtain ⟨w, _, rfl⟩ := Wiring.get?_lay_eq_some_iff.mp found
    exact Wire.exists_emissions_iff readTopology
  refine ⟨?_, ?_⟩
  · rw [exists_requests_iff (sound_of_ofFiles read).1]
    exact forall_congr' fun name => forall_congr' fun w => forall_congr' fun found =>
      imp_congr_right fun _ => accepted name w found
  · intro name w found isAccepted direction
    obtain ⟨es, emitted⟩ := (accepted name w found).mpr isAccepted
    obtain ⟨hs, hops⟩ := Wire.exists_hops emitted direction
    obtain ⟨reversed, side, rfl, nonempty⟩ := Wire.hops_ok_iff.mp hops
    refine ⟨reversed, _, side, hops, nonempty, rfl, ?_, Topology.traces_iff⟩
    rintro shared rfl
    rw [laid] at found
    obtain ⟨w, _, rfl⟩ := Wiring.get?_lay_eq_some_iff.mp found
    exact Wire.ends_of_isReversed readTopology shared side

/-- The first shared wire follows the links from its test host to the tagged port, and so is a cable. -/
theorem wires_accepted_twin :
    ∃ p m w hs, ofFiles .v13 twinFile twinWires = .ok p ∧ p.requests .shared = .ok m ∧
      p.wiring.wires.get? "w1" = some w ∧ w.Accepted p.topology ∧ w.hops .toDut = .ok hs ∧
      hs.map Hop.node = ["s1", "s2"] ∧ p.topology.Cable ⟨"h1", "e"⟩ ⟨"d", "e0"⟩ hs := by
  obtain ⟨p, read⟩ : ∃ p, ofFiles .v13 twinFile twinWires = .ok p := ⟨_, rfl⟩
  obtain ⟨m, made⟩ : ∃ m, p.requests .shared = .ok m := by cases read; exact ⟨_, rfl⟩
  obtain ⟨w, found⟩ : ∃ w, p.wiring.wires.get? "w1" = some w := by cases read; exact ⟨_, rfl⟩
  have asked : .wire "w1" ∈ p.wiring.origins .shared := by
    cases read
    decide
  obtain ⟨all, each⟩ := wires_accepted read .shared
  have accepted := all.mp ⟨m, made⟩ "w1" w found asked
  obtain ⟨reversed, hs, side, hops, _, _, _, traces⟩ := each "w1" w found accepted .toDut
  have path : p.topology.Traces ⟨"h1", "e"⟩ ⟨"d", "e0"⟩ (w.readPath reversed) := by
    refine ⟨hs, ?_, ?_, ?_⟩
    all_goals
      cases read
      cases found
      cases side
      cases hops
    · rfl
    · exact ⟨by decide, by decide⟩
    · exact ⟨⟨_, rfl, rfl⟩, by decide, ⟨_, rfl, rfl⟩⟩
  have nodes : hs.map Hop.node = ["s1", "s2"] := by
    cases read
    cases found
    cases hops
    rfl
  have hosts : w.testHost.endpoint = ⟨"h1", "e"⟩ ∧ w.dutHost.endpoint = ⟨"d", "e0"⟩ := by
    cases read
    cases found
    exact ⟨rfl, rfl⟩
  rw [hosts.1, hosts.2] at traces
  exact ⟨p, m, w, hs, read, made, found, accepted, hops, nodes, (traces.mp path).1⟩

end Panel

/-- A shared wire from the first test host that names the second one, and an exclusive wire that leaves the
    first switch by the port of a test host. -/
def strayPathWires : WireFile where
  wires := some (.ofList [
    ("w", {
      mode := some "shared"
      path := some [⟨"s1", "p1"⟩, ⟨"s1", "p3"⟩, ⟨"s2", "p1"⟩, ⟨"s2", "p2"⟩]
      testHostPort := some ⟨"h2", "e"⟩
      dutHostPort := some ⟨"d", "e0"⟩ }),
    ("x", {
      mode := some "exclusive"
      path := some [⟨"s1", "p1"⟩, ⟨"s1", "p2"⟩, ⟨"s2", "p1"⟩, ⟨"s2", "p3"⟩]
      testHostPort := some ⟨"h1", "e"⟩
      dutHostPort := some ⟨"d", "e1"⟩ })])
  groups := some (.ofList [("g", ⟨some 7, some ["w"]⟩)])

/-- Both stray wires are compiled, and neither is a cable between the hosts that it names. -/
theorem Panel.not_cable_stray :
    ∃ p m w x, ofFiles .v13 twinFile strayPathWires = .ok p ∧ p.requests .all = .ok m ∧
      p.wiring.wires.get? "w" = some w ∧ .wire "w" ∈ p.wiring.origins .all ∧
      (∃ es, w.emissions = .ok es ∧ es ≠ []) ∧
      p.wiring.wires.get? "x" = some x ∧ .wire "x" ∈ p.wiring.origins .all ∧
      (∃ es, x.emissions = .ok es ∧ es ≠ []) ∧
      (∀ hs, w.hops .toDut = .ok hs → ¬ p.topology.Cable w.testHost.endpoint w.dutHost.endpoint hs) ∧
      ∀ direction hs, x.hops direction = .ok hs → ¬ p.topology.Cable x.testHost.endpoint x.dutHost.endpoint hs := by
  obtain ⟨p, read⟩ : ∃ p, ofFiles .v13 twinFile strayPathWires = .ok p := ⟨_, rfl⟩
  obtain ⟨m, made⟩ : ∃ m, p.requests .all = .ok m := by cases read; exact ⟨_, rfl⟩
  obtain ⟨w, found⟩ : ∃ w, p.wiring.wires.get? "w" = some w := by cases read; exact ⟨_, rfl⟩
  obtain ⟨x, foundOther⟩ : ∃ x, p.wiring.wires.get? "x" = some x := by cases read; exact ⟨_, rfl⟩
  refine ⟨p, m, w, x, read, made, found, ?_, ?_, foundOther, ?_, ?_, ?_, ?_⟩
  all_goals cases read
  · decide
  · cases found
    exact ⟨_, rfl, by decide⟩
  · decide
  · cases foundOther
    exact ⟨_, rfl, by decide⟩
  · -- The first hop enters by the port of the first test host.
    cases found
    rintro hs hops ⟨⟨h, first, linked⟩, _, _⟩
    cases hops
    cases first
    exact absurd linked (by decide)
  · -- There is no link between the two hops, in either direction.
    cases foundOther
    rintro direction hs hops ⟨_, between, _⟩
    cases direction
    all_goals
      cases hops
      exact absurd between (by decide)

end PatchPanel
