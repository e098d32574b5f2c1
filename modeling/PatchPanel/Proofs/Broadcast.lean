import PatchPanel.Wiring.Group
import PatchPanel.Proofs.Requests
import PatchPanel.Proofs.SwitchMap

/-!
The tags of broadcasts. A broadcast of a group comes in with the tag of the host under test, runs under
the id of the group from switch to switch, and leaves without a tag towards the test hosts
(`Group.CarriesAt`), so what one hop sends is what the next one takes.
-/
namespace PatchPanel

/-- The tag of the frames that a request takes. -/
def Request.tagIn (r : Request) : Option UInt16 := r.vlanVid

/-- The tag of the frames that a request sends. -/
def Request.tagOut (r : Request) : Option UInt16 :=
  if r.popVlan then none else (r.pushVlan.or r.setVlan).or r.tagIn

/-- The hop takes frames from the host under test. -/
def Hop.fromDut (h : Hop) : Bool := h.input.bound.any (·.port.isDutEdge)

/-- The hop sends frames to the test host. -/
def Hop.toHost (h : Hop) : Bool := h.output.bound.any (·.port.isHostEdge)

/-- A group of the shared wire over two switches. -/
def trunkGroup : Group := ⟨"g", 7, ["w"], .v13, by decide⟩

namespace Group

/-- What a group asks for at a hop of its broadcasts, where `dutVlan` is the tag of the host under test
    and `ports` are the ports by which broadcasts leave. -/
structure CarriesAt (g : Group) (dutVlan : Option UInt16) (ports : List UInt32) (h : Hop) (e : Emission) : Prop where
  switch : e.1 = h.node
  input : ∃ a, h.input.bound = some a ∧ e.2.dpid = a.datapathId ∧ e.2.inPort = some a.port.number
  outputs : ∃ b, h.output.bound = some b ∧
    if h.toHost then e.2.outPorts = some ports ∧ e.2.outPort = none
    else e.2.outPorts = none ∧ e.2.outPort = some b.port.number
  tagIn : e.2.tagIn = if h.fromDut then dutVlan else some g.id
  tagOut : e.2.tagOut = if h.toHost then none else some g.id
  popVlan : e.2.popVlan = true ↔ e.2.tagIn.isSome ∧ h.toHost
  priority : e.2.priority = some broadcastPriority
  address : e.2.ethDst = some Address.broadcastMac ∧ e.2.ethSrc = none
  noMpls : e.2.mplsLabel = none ∧ e.2.pushMpls = none ∧ e.2.popMpls = false

theorem broadcastRequest_ok_iff {g : Group} {dutVlan : Option UInt16} {ports : List UInt32} {h : Hop} {r : Request} :
    g.broadcastRequest dutVlan ports h = .ok r ↔
      ∃ a b, h.input.bound = some a ∧ h.output.bound = some b ∧
        r = g.tagBroadcast dutVlan ports a.port.isDutEdge b.port.isHostEdge
          { Request.forward a.datapathId a.port.number b.port.number broadcastPriority with
            ethDst := some Address.broadcastMac } := by
  simp only [broadcastRequest, bind_eq_ok_iff, Element.require_ok_iff, pure_eq_ok, Except.ok.injEq]
  constructor
  · rintro ⟨a, input, b, output, rfl⟩
    exact ⟨a, b, input, output, rfl⟩
  · rintro ⟨a, b, input, output, rfl⟩
    exact ⟨a, input, b, output, rfl⟩

theorem emitBroadcast_ok_iff {g : Group} {w : Wire} {ports : List UInt32} {es : List Emission} :
    g.emitBroadcast w ports = .ok es ↔ ∃ dut hs, w.dutHostPort = .ok dut ∧ w.hops .toHost = .ok hs ∧
      List.Forall₂ (fun h e => e.1 = h.node ∧ g.broadcastRequest dut.vlan? ports h = .ok e.2) hs es := by
  simp only [emitBroadcast, bind_eq_ok_iff, Wire.emitHops_ok_iff]
  constructor
  · rintro ⟨dut, ofDut, hs, hops, each⟩
    exact ⟨dut, hs, ofDut, hops, each⟩
  · rintro ⟨dut, hs, ofDut, hops, each⟩
    exact ⟨dut, ofDut, hs, hops, each⟩

theorem carriesAt_of_request {g : Group} {dutVlan : Option UInt16} {ports : List UInt32} {h : Hop} {e : Emission}
    (node : e.1 = h.node) (request : g.broadcastRequest dutVlan ports h = .ok e.2) :
    g.CarriesAt dutVlan ports h e := by
  obtain ⟨name, r⟩ := e
  obtain ⟨a, b, input, output, same⟩ := broadcastRequest_ok_iff.mp request
  have fromDut : h.fromDut = a.port.isDutEdge := by rw [Hop.fromDut, input]; rfl
  have toHost : h.toHost = b.port.isHostEdge := by rw [Hop.toHost, output]; rfl
  simp only at node same
  subst same
  -- The four kinds of hops, with and without a tag at the host under test.
  cases dutEdge : a.port.isDutEdge <;> cases hostEdge : b.port.isHostEdge <;> rw [dutEdge] at fromDut <;>
    rw [hostEdge] at toHost
  case false.false =>
    constructor <;> simp [tagBroadcast, Request.forward, Request.tagIn, Request.tagOut, *]
  case false.true =>
    constructor <;> simp [tagBroadcast, fanOut, Request.forward, Request.tagIn, Request.tagOut, *]
  case true.false =>
    cases dutVlan with
    | none =>
      cases pushes : g.version.hasPushVlan <;> constructor <;>
        simp [tagBroadcast, pushId, Request.forward, Request.tagIn, Request.tagOut, *]
    | some vlan =>
      constructor <;> simp [tagBroadcast, Request.forward, Request.tagIn, Request.tagOut, *]
  case true.true =>
    cases dutVlan with
    | none => constructor <;> simp [tagBroadcast, fanOut, Request.forward, Request.tagIn, Request.tagOut, *]
    | some vlan => constructor <;> simp [tagBroadcast, fanOut, Request.forward, Request.tagIn, Request.tagOut, *]

/-- The broadcasts of a group along a wire: one request for each hop towards the test host, on its
    switch and in the order of the hops, with the tags of `CarriesAt`. Between two hops that follow
    each other on the way the tag stays what it is. -/
theorem broadcastRequests_tags {g : Group} {w : Wire} {ports : List UInt32} {m : RequestMap}
    (made : g.broadcastRequests w ports = .ok m) :
    ∃ dut hs es, w.dutHostPort = .ok dut ∧ w.hops .toHost = .ok hs ∧
      List.Forall₂ (g.CarriesAt dut.vlan? ports) hs es ∧
      (∀ switch, m.get? switch =
        if switch ∈ hs.map Hop.node then some (valuesFor switch es) else none) ∧
      ∀ i h next e after, hs[i]? = some h → hs[i + 1]? = some next → es[i]? = some e → es[i + 1]? = some after →
        h.toHost = false → next.fromDut = false → e.2.tagOut = after.2.tagIn := by
  obtain ⟨es, emitted, rfl⟩ := map_eq_ok_iff.mp made
  obtain ⟨dut, hs, ofDut, hops, each⟩ := emitBroadcast_ok_iff.mp emitted
  have carries : List.Forall₂ (g.CarriesAt dut.vlan? ports) hs es :=
    each.imp fun h e ⟨node, request⟩ => carriesAt_of_request node request
  refine ⟨dut, hs, es, ofDut, hops, carries, ?_, ?_⟩
  · intro switch
    have nodes : es.map Prod.fst = hs.map Hop.node := map_eq_of_forall₂ carries fun h e here => here.switch
    rw [SwitchMap.get?_ofList, nodes]
  · intro i h next e after here there request later stays goesOn
    have first := (forall₂_getElem? carries here request).tagOut
    have second := (forall₂_getElem? carries there later).tagIn
    rw [stays] at first
    rw [goesOn] at second
    simp [first, second]

/-- The wire over two switches: the tag 200 of the host under test becomes the id 7 of the group, and
    the frames leave by both ports without a tag. -/
theorem broadcastRequests_tags_trunk :
    ∃ m dut hs es, trunkGroup.broadcastRequests (trunkWire.lay trunkTopology) [1, 3] = .ok m ∧
      (trunkWire.lay trunkTopology).dutHostPort = .ok dut ∧
      (trunkWire.lay trunkTopology).hops .toHost = .ok hs ∧
      List.Forall₂ (trunkGroup.CarriesAt dut.vlan? [1, 3]) hs es ∧
      m.get? "s2" = some (valuesFor "s2" es) ∧
      m.get? "s3" = none := by
  obtain ⟨m, made⟩ : ∃ m, trunkGroup.broadcastRequests (trunkWire.lay trunkTopology) [1, 3] = .ok m := ⟨_, rfl⟩
  obtain ⟨dut, hs, es, ofDut, hops, carries, lists, _⟩ := broadcastRequests_tags made
  refine ⟨m, dut, hs, es, made, ofDut, hops, carries, ?_, ?_⟩
  · rw [lists "s2"]
    cases hops
    rfl
  · rw [lists "s3"]
    cases hops
    rfl

end Group
end PatchPanel
