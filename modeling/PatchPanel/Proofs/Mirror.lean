import PatchPanel.Proofs.Requests

/-!
The two directions of a wire. A wire that is laid over a topology sends frames back the way they
came: its requests back are its requests there from the last to the first, each with input and output
exchanged, the address of the test host on the other side, and the tag of the host under test taken
off where it was put on.
-/
namespace PatchPanel

/-- The request for the frames that come back: ports and addresses change sides, and a tag that was
    put on is matched and taken off. Switch, priority and all else stay. -/
def Request.mirror (r : Request) : Request :=
  { r with
    inPort := r.outPort
    outPort := r.inPort
    ethSrc := r.ethDst
    ethDst := r.ethSrc
    vlanVid := r.pushVlan.or r.setVlan
    popVlan := (r.pushVlan.or r.setVlan).isSome
    pushVlan := none
    setVlan := none }

namespace Wire

theorem Profile.between_mirror (p : Profile) (version : Version) {a b : BoundPort}
    (switch : a.datapathId = b.datapathId) :
    p.between version .toHost b a = (p.between version .toDut a b).mirror := by
  cases pushes : version.hasPushVlan <;> simp [between, Request.mirror, Request.forward, switch, pushes]

/-- A laid wire whose requests there can be made has requests back: their mirror. -/
theorem emit_toHost {t : Topology} {w : Wire} {there : List Emission} (forth : (w.lay t).emit .toDut = .ok there) :
    (w.lay t).emit .toHost = .ok (there.reverse.map fun e => (e.1, e.2.mirror)) := by
  obtain ⟨hs, p, hops, made, each⟩ := emit_ok_iff.mp forth
  have back : (w.lay t).hops .toHost = .ok (hs.reverse.map Hop.flip) := by
    rw [hops_toHost, hops]
    rfl
  refine emit_ok_iff.mpr ⟨hs.reverse.map Hop.flip, p, back, made, ?_⟩
  rw [List.forall₂_map_left_iff, List.forall₂_map_right_iff, List.forall₂_reverse_iff]
  have onPath := (List.forall₂_and_left _ _).mpr ⟨fun h member => mem_hops hops member, each⟩
  refine onPath.imp ?_
  rintro h ⟨name, r⟩ ⟨⟨input, output, node⟩, here, request⟩
  obtain ⟨a, b, boundInput, boundOutput, made⟩ := Profile.request_ok_iff.mp request
  have switch : a.datapathId = b.datapathId :=
    Topology.bound?_datapathId ((bound_of_mem_lay input).symm.trans boundInput)
      ((bound_of_mem_lay output).symm.trans boundOutput) node
  refine ⟨?_, Profile.request_ok_iff.mpr ⟨b, a, boundOutput, boundInput, ?_⟩⟩
  · exact here.trans node
  · simp only at made
    rw [p.between_mirror (w.lay t).version switch, made]

/-- What a wire asks for at a hop towards the host under test. Its request carries a tag where the
    wire is shared, the hop leads to the host under test and that host is on a tagged port. -/
structure AsksAt (w : Wire) (h : Hop) (e : Emission) : Prop where
  switch : e.1 = h.node
  ports : ∃ a b, h.input.bound = some a ∧ h.output.bound = some b ∧ e.2.dpid = a.datapathId ∧
    e.2.inPort = some a.port.number ∧ e.2.outPort = some b.port.number ∧
    ∀ vlan, (e.2.pushVlan = some vlan ∨ e.2.setVlan = some vlan) ↔
      w.mode = .shared ∧ b.port.isDutEdge = true ∧ ∃ dut, w.dutHostPort = .ok dut ∧ dut.vlan? = some vlan
  tagging : if w.version.hasPushVlan then e.2.setVlan = none else e.2.pushVlan = none
  priority : e.2.priority = some (if w.mode = .shared then sharedPriority else exclusivePriority)
  address : ∀ mac, e.2.ethSrc = some mac ↔
    w.mode = .shared ∧ ∃ host, w.testHostPort = .ok host ∧ host.mac = mac
  unset : e.2.outPorts = none ∧ e.2.ethDst = none ∧ e.2.vlanVid = none ∧ e.2.mplsLabel = none ∧
    e.2.popVlan = false ∧ e.2.pushMpls = none ∧ e.2.popMpls = false

theorem asksAt_of_request {w : Wire} {p : Profile} {h : Hop} {e : Emission} (made : w.profile = .ok p)
    (node : e.1 = h.node) (request : p.request w.version .toDut h = .ok e.2) : w.AsksAt h e := by
  obtain ⟨name, r⟩ := e
  obtain ⟨a, b, input, output, same⟩ := Profile.request_ok_iff.mp request
  simp only at node same
  subst same
  cases mode : w.mode with
  | exclusive =>
    rw [profile_exclusive made mode]
    constructor
    case switch => exact node
    case ports => exact ⟨a, b, input, output, by simp [Profile.between, Profile.tagAt, Request.forward, mode]⟩
    case tagging => cases pushes : w.version.hasPushVlan <;> simp [Profile.between, pushes]
    case priority => simp [Profile.between, Request.forward, mode]
    case address => simp [Profile.between, mode]
    case unset => simp [Profile.between, Request.forward]
  | shared =>
    obtain ⟨host, dut, ofHost, ofDut, rfl⟩ := profile_shared made mode
    constructor
    case switch => exact node
    case ports =>
      refine ⟨a, b, input, output, rfl, rfl, rfl, ?_⟩
      intro vlan
      cases pushes : w.version.hasPushVlan <;> cases edge : b.port.isDutEdge <;>
        simp [Profile.between, Profile.tagAt, pushes, edge, mode, ofDut]
    case tagging => cases pushes : w.version.hasPushVlan <;> simp [Profile.between, pushes]
    case priority => simp [Profile.between, Request.forward, mode]
    case address => simp [Profile.between, mode, ofHost]
    case unset => simp [Profile.between, Request.forward]

/-- The requests of a laid wire are one for each hop there and then their mirror, from the last hop
    to the first. On a shared wire the requests there go by the source address and those back by the
    destination address. -/
theorem requests_mirror {t : Topology} {w : Wire} {m : RequestMap} (made : (w.lay t).requests = .ok m) :
    ∃ hs there back,
      (w.lay t).hops .toDut = .ok hs ∧ (w.lay t).hops .toHost = .ok (hs.reverse.map Hop.flip) ∧
      (w.lay t).emit .toDut = .ok there ∧ (w.lay t).emit .toHost = .ok back ∧
      m = .ofList (there ++ back) ∧
      List.Forall₂ (w.lay t).AsksAt hs there ∧
      back = there.reverse.map (fun e => (e.1, e.2.mirror)) ∧
      there.length = hs.length ∧ back.length = hs.length ∧
      (w.mode = .shared → (∀ e ∈ there, e.2.ethSrc.isSome ∧ e.2.ethDst = none) ∧
        ∀ e ∈ back, e.2.ethDst.isSome ∧ e.2.ethSrc = none) ∧
      (w.mode = .exclusive → ∀ e ∈ there ++ back, e.2.ethSrc = none ∧ e.2.ethDst = none) := by
  rw [requests_eq, map_eq_ok_iff] at made
  obtain ⟨es, emitted, grouped⟩ := made
  obtain ⟨_, there, back, forth, backwards, rfl⟩ := emissions_ok_iff.mp emitted
  obtain ⟨hs, p, hops, ofWire, each⟩ := emit_ok_iff.mp forth
  have asks : List.Forall₂ (w.lay t).AsksAt hs there :=
    each.imp fun h e ⟨node, request⟩ => asksAt_of_request ofWire node request
  have mirrored : back = there.reverse.map fun e => (e.1, e.2.mirror) := by
    rw [emit_toHost forth] at backwards
    exact (Except.ok.inj backwards).symm
  have back_hops : (w.lay t).hops .toHost = .ok (hs.reverse.map Hop.flip) := by
    rw [hops_toHost, hops]
    rfl
  have destination : ∀ e ∈ there, e.2.ethDst = none := by
    intro e member
    obtain ⟨h, _, here⟩ := exists_left_of_forall₂ asks member
    exact here.unset.2.1
  have there_of_back : ∀ e ∈ back, ∃ f ∈ there, e.2 = f.2.mirror := by
    intro e member
    rw [mirrored] at member
    obtain ⟨f, inside, rfl⟩ := List.mem_map.mp member
    exact ⟨f, List.mem_reverse.mp inside, rfl⟩
  refine ⟨hs, there, back, hops, back_hops, forth, backwards, grouped.symm, asks, mirrored, ?_, ?_, ?_, ?_⟩
  · exact asks.length_eq.symm
  · rw [mirrored]
    simp [asks.length_eq]
  · intro shared
    obtain ⟨host, _, ofHost, _, _⟩ := profile_shared ofWire shared
    have source : ∀ e ∈ there, e.2.ethSrc.isSome := by
      intro e member
      obtain ⟨h, _, here⟩ := exists_left_of_forall₂ asks member
      rw [(here.address host.mac).mpr ⟨shared, host, ofHost, rfl⟩]
      rfl
    refine ⟨fun e member => ⟨source e member, destination e member⟩, fun e member => ?_⟩
    obtain ⟨f, inside, same⟩ := there_of_back e member
    rw [same]
    exact ⟨source f inside, destination f inside⟩
  · intro exclusive
    have source : ∀ e ∈ there, e.2.ethSrc = none := by
      intro e member
      obtain ⟨h, _, here⟩ := exists_left_of_forall₂ asks member
      rw [Option.eq_none_iff_forall_ne_some]
      intro mac found
      have shared : w.mode = .shared := ((here.address mac).mp found).1
      rw [exclusive] at shared
      cases shared
    intro e member
    rcases List.mem_append.mp member with forward | backward
    · exact ⟨source e forward, destination e forward⟩
    · obtain ⟨f, inside, same⟩ := there_of_back e backward
      rw [same]
      exact ⟨destination f inside, source f inside⟩

/-- The wire over two switches: the tag of the host under test goes on at the second switch and comes
    off there again. -/
theorem requests_mirror_trunk :
    ∃ m there back, (trunkWire.lay trunkTopology).requests = .ok m ∧ m = .ofList (there ++ back) ∧
      (trunkWire.lay trunkTopology).emit .toDut = .ok there ∧
      (trunkWire.lay trunkTopology).emit .toHost = .ok back ∧
      back = there.reverse.map (fun e => (e.1, e.2.mirror)) ∧
      there.map (fun e => (e.1, e.2.pushVlan, e.2.popVlan)) = [("s1", none, false), ("s2", some 200, false)] ∧
      back.map (fun e => (e.1, e.2.vlanVid, e.2.popVlan)) = [("s2", some 200, true), ("s1", none, false)] := by
  obtain ⟨m, made⟩ : ∃ m, (trunkWire.lay trunkTopology).requests = .ok m := ⟨_, rfl⟩
  obtain ⟨hs, there, back, _, _, forth, backwards, grouped, _, mirrored, _⟩ := requests_mirror made
  refine ⟨m, there, back, made, grouped, forth, backwards, mirrored, ?_, ?_⟩
  · cases forth
    rfl
  · cases backwards
    rfl

end Wire
end PatchPanel
