import PatchPanel.Wiring.Requests
import PatchPanel.Proofs.Hops

/-!
The requests of a wire in closed form. What all requests of a wire have in common is its profile:
their priority, the address of the test host and the VLAN id of the host under test (`emit_eq`). A
laid wire has the requests there and then those back (`emissions`).
-/
namespace PatchPanel

theorem Topology.bound?_eq_some_iff {t : Topology} {e : Endpoint} {b : BoundPort} :
    t.bound? e = some b ↔ ∃ n p, t.node? e.node = some n ∧ n.ports.get? e.port = some p ∧
      b = ⟨n.kind, n.datapathId, p⟩ := by
  simp only [bound?, Option.bind_eq_some_iff, Option.map_eq_some_iff]
  constructor
  · rintro ⟨n, found, p, port, rfl⟩
    exact ⟨n, p, found, port, rfl⟩
  · rintro ⟨n, p, found, port, rfl⟩
    exact ⟨n, found, p, port, rfl⟩

/-- Elements that one topology binds on one node are on one switch. -/
theorem Topology.bound?_datapathId {t : Topology} {e f : Endpoint} {a b : BoundPort} (first : t.bound? e = some a)
    (second : t.bound? f = some b) (same : e.node = f.node) : a.datapathId = b.datapathId := by
  obtain ⟨n, _, found, _, rfl⟩ := bound?_eq_some_iff.mp first
  obtain ⟨n', _, again, _, rfl⟩ := bound?_eq_some_iff.mp second
  rw [← same, found] at again
  cases again
  rfl

namespace Wire

theorem bound_of_mem_lay {t : Topology} {w : Wire} {e : Element} (member : e ∈ (w.lay t).path) :
    e.bound = t.bound? e.endpoint := by
  obtain ⟨free, _, rfl⟩ := List.mem_map.mp member
  rfl

theorem emitHops_ok_iff {request : Hop → Except WireFault Request} {hs : List Hop} {es : List Emission} :
    emitHops request hs = .ok es ↔ List.Forall₂ (fun h e => e.1 = h.node ∧ request h = .ok e.2) hs es := by
  induction hs generalizing es with
  | nil => simp [emitHops, eq_comm]
  | cons h hs ih =>
    simp only [emitHops, bind_eq_ok_iff, pure_eq_ok, Except.ok.injEq]
    constructor
    · rintro ⟨r, made, rest, later, rfl⟩
      exact .cons ⟨rfl, made⟩ (ih.mp later)
    · rintro (_ | ⟨⟨node, made⟩, later⟩)
      rename_i e es
      obtain ⟨name, r⟩ := e
      cases node
      exact ⟨r, made, es, ih.mpr later, rfl⟩

/-- What all requests of a wire have in common. An exclusive wire goes by no address and no tag. -/
structure Profile where
  priority : UInt16
  mac : Option String
  vlan : Option UInt16

/-- The profile of a wire, which for a shared wire comes from the hosts at its ends. -/
def profile (w : Wire) : Except WireFault Profile :=
  match w.mode with
  | .exclusive => .ok ⟨exclusivePriority, none, none⟩
  | .shared => do
    let host ← w.testHostPort
    let dut ← w.dutHostPort
    return ⟨sharedPriority, some host.mac, dut.vlan?⟩

theorem profile_exclusive {w : Wire} {p : Profile} (made : w.profile = .ok p) (mode : w.mode = .exclusive) :
    p = ⟨exclusivePriority, none, none⟩ := by
  simp only [profile, mode, Except.ok.injEq] at made
  exact made.symm

theorem profile_shared {w : Wire} {p : Profile} (made : w.profile = .ok p) (mode : w.mode = .shared) :
    ∃ host dut, w.testHostPort = .ok host ∧ w.dutHostPort = .ok dut ∧
      p = ⟨sharedPriority, some host.mac, dut.vlan?⟩ := by
  simp only [profile, mode, bind_eq_ok_iff, pure_eq_ok, Except.ok.injEq] at made
  obtain ⟨host, ofHost, dut, ofDut, same⟩ := made
  exact ⟨host, dut, ofHost, ofDut, same.symm⟩

namespace Profile

/-- The tag of frames outside a port: that of the host under test where the port faces it. -/
def tagAt (p : Profile) (b : BoundPort) : Option UInt16 := if b.port.isDutEdge then p.vlan else none

/-- The request to forward from port `a` to port `b`. -/
def between (p : Profile) (version : Version) (direction : Direction) (a b : BoundPort) : Request :=
  let r := Request.forward a.datapathId a.port.number b.port.number p.priority
  match direction with
  | .toDut =>
    { r with
      ethSrc := p.mac
      pushVlan := if version.hasPushVlan then p.tagAt b else none
      setVlan := if version.hasPushVlan then none else p.tagAt b }
  | .toHost => { r with ethDst := p.mac, vlanVid := p.tagAt a, popVlan := (p.tagAt a).isSome }

/-- The request of a hop. -/
def request (p : Profile) (version : Version) (direction : Direction) (h : Hop) : Except WireFault Request := do
  let a ← h.input.require
  let b ← h.output.require
  return p.between version direction a b

theorem request_ok_iff {p : Profile} {version : Version} {direction : Direction} {h : Hop} {r : Request} :
    p.request version direction h = .ok r ↔
      ∃ a b, h.input.bound = some a ∧ h.output.bound = some b ∧ r = p.between version direction a b := by
  simp only [request, bind_eq_ok_iff, Element.require_ok_iff, pure_eq_ok, Except.ok.injEq]
  constructor
  · rintro ⟨a, input, b, output, rfl⟩
    exact ⟨a, b, input, output, rfl⟩
  · rintro ⟨a, b, input, output, rfl⟩
    exact ⟨a, input, b, output, rfl⟩

end Profile

private theorem exclusiveRequest_eq (version : Version) (direction : Direction) :
    exclusiveRequest = Profile.request ⟨exclusivePriority, none, none⟩ version direction := by
  funext h
  unfold exclusiveRequest Profile.request
  cases h.input.require with
  | error e => rfl
  | ok a =>
    cases h.output.require with
    | error e => rfl
    | ok b => cases direction <;> simp [Profile.between, Profile.tagAt, Request.forward]

private theorem sharedRequest_eq (version : Version) (mac : String) (vlan : Option UInt16) (direction : Direction) :
    sharedRequest version mac vlan direction = Profile.request ⟨sharedPriority, some mac, vlan⟩ version direction := by
  funext h
  unfold sharedRequest Profile.request
  cases h.input.require with
  | error e => rfl
  | ok a =>
    cases h.output.require with
    | error e => rfl
    | ok b =>
      cases direction with
      | toDut =>
        cases edge : b.port.isDutEdge <;> cases vlan <;> cases pushes : version.hasPushVlan <;>
          simp [Profile.between, Profile.tagAt, addressed, changeTag, Request.forward, edge, pushes]
      | toHost =>
        cases edge : a.port.isDutEdge <;> cases vlan <;>
          simp [Profile.between, Profile.tagAt, addressed, changeTag, Request.forward, edge]

/-- The requests of a direction are those of the wire's profile at its hops, in order. -/
theorem emit_eq (w : Wire) (direction : Direction) :
    w.emit direction =
      w.hops direction >>= fun hs => w.profile >>= fun p => emitHops (p.request w.version direction) hs := by
  unfold emit profile
  cases w.hops direction with
  | error e => rfl
  | ok hs =>
    cases w.mode with
    | exclusive => simp only [ok_bind, exclusiveRequest_eq w.version direction]
    | shared =>
      simp only [ok_bind, sharedRequest_eq]
      cases w.testHostPort with
      | error e => rfl
      | ok host => cases w.dutHostPort <;> rfl

theorem emit_ok_iff {w : Wire} {direction : Direction} {es : List Emission} :
    w.emit direction = .ok es ↔ ∃ hs p, w.hops direction = .ok hs ∧ w.profile = .ok p ∧
      List.Forall₂ (fun h e => e.1 = h.node ∧ p.request w.version direction h = .ok e.2) hs es := by
  simp only [emit_eq, bind_eq_ok_iff, emitHops_ok_iff]
  constructor
  · rintro ⟨hs, hops, p, made, each⟩
    exact ⟨hs, p, hops, made, each⟩
  · rintro ⟨hs, p, hops, made, each⟩
    exact ⟨hs, hops, p, made, each⟩

/-- The requests of a laid wire in a row: those towards the host under test, then those back. -/
def emissions (w : Wire) : Except WireFault (List Emission) :=
  if w.laid then do
    let there ← w.emit .toDut
    let back ← w.emit .toHost
    return there ++ back
  else .error .unbound

theorem requests_eq (w : Wire) : w.requests = w.emissions.map .ofList := by
  unfold requests emissions
  cases w.laid with
  | false => rfl
  | true =>
    cases w.emit .toDut with
    | error e => rfl
    | ok there => cases w.emit .toHost <;> rfl

theorem emissions_ok_iff {w : Wire} {es : List Emission} :
    w.emissions = .ok es ↔ w.laid = true ∧ ∃ there back,
      w.emit .toDut = .ok there ∧ w.emit .toHost = .ok back ∧ es = there ++ back := by
  unfold emissions
  cases laid : w.laid with
  | false => simp
  | true =>
    simp only [↓reduceIte, bind_eq_ok_iff, pure_eq_ok, Except.ok.injEq, true_and]
    constructor
    · rintro ⟨there, forth, back, backwards, rfl⟩
      exact ⟨there, back, forth, backwards, rfl⟩
    · rintro ⟨there, back, forth, backwards, rfl⟩
      exact ⟨there, forth, back, backwards, rfl⟩

/-- Every request of a wire is that of its profile at a hop of one of the two directions. -/
theorem exists_between_of_emissions {w : Wire} {es : List Emission} (emitted : w.emissions = .ok es) {e : Emission}
    (member : e ∈ es) :
    ∃ p direction hs h a b, w.profile = .ok p ∧ w.hops direction = .ok hs ∧ h ∈ hs ∧ h.input.bound = some a ∧
      h.output.bound = some b ∧ e = (h.node, p.between w.version direction a b) := by
  have ofEmit : ∀ direction fs, w.emit direction = .ok fs → e ∈ fs →
      ∃ p direction hs h a b, w.profile = .ok p ∧ w.hops direction = .ok hs ∧ h ∈ hs ∧ h.input.bound = some a ∧
        h.output.bound = some b ∧ e = (h.node, p.between w.version direction a b) := by
    intro direction fs made inside
    obtain ⟨hs, p, hops, ofWire, each⟩ := emit_ok_iff.mp made
    obtain ⟨h, onPath, node, request⟩ := exists_left_of_forall₂ each inside
    obtain ⟨a, b, input, output, same⟩ := Profile.request_ok_iff.mp request
    exact ⟨p, direction, hs, h, a, b, ofWire, hops, onPath, input, output, Prod.ext node same⟩
  obtain ⟨_, there, back, forth, backwards, rfl⟩ := emissions_ok_iff.mp emitted
  rcases List.mem_append.mp member with forward | backward
  · exact ofEmit .toDut there forth forward
  · exact ofEmit .toHost back backwards backward

/-- A wire that can emit has hops in both directions. -/
theorem exists_hops {w : Wire} {es : List Emission} (emitted : w.emissions = .ok es) (direction : Direction) :
    ∃ hs, w.hops direction = .ok hs := by
  obtain ⟨_, there, back, forth, backwards, _⟩ := emissions_ok_iff.mp emitted
  cases direction with
  | toDut =>
    obtain ⟨hs, _, hops, _⟩ := emit_ok_iff.mp forth
    exact ⟨hs, hops⟩
  | toHost =>
    obtain ⟨hs, _, hops, _⟩ := emit_ok_iff.mp backwards
    exact ⟨hs, hops⟩

end Wire

/-! ### A wire to look at -/

private def switchPort (name : String) (facing : NodeKind) (number : UInt32) : String × Port :=
  (name, ⟨name, .null, .switch facing number⟩)

/-- A test host, two switches in a row and a host under test on a tagged port. -/
def trunkTopology : Topology where
  switches := ⟨[
    ("s1", ⟨"s1", .switch, 1, ⟨[switchPort "p1" .testHost 1, switchPort "p2" .switch 2], by decide⟩⟩),
    ("s2", ⟨"s2", .switch, 2, ⟨[switchPort "p1" .switch 1, switchPort "p2" .dutHost 2], by decide⟩⟩)], by decide⟩
  testHosts := ⟨[("h", ⟨"h", .testHost, 0,
    ⟨[("e", ⟨"e", .null, .testHost ⟨"0a:00:00:00:00:01", "192.168.2.101/24", none⟩⟩)], by decide⟩⟩)], by decide⟩
  dutHosts := ⟨[("d", ⟨"d", .dutHost, 0, ⟨[("e", ⟨"e", .null, .dutHost ⟨200, true⟩⟩)], by decide⟩⟩)], by decide⟩
  links := .ofLinks [⟨⟨"h", "e"⟩, ⟨"s1", "p1"⟩⟩, ⟨⟨"s1", "p2"⟩, ⟨"s2", "p1"⟩⟩, ⟨⟨"s2", "p2"⟩, ⟨"d", "e"⟩⟩]

/-- A shared wire between both hosts, written from the host under test. -/
def trunkWire : Wire where
  name := "w"
  mode := .shared
  version := .v13
  path := [.free ⟨"s2", "p2"⟩, .free ⟨"s2", "p1"⟩, .free ⟨"s1", "p2"⟩, .free ⟨"s1", "p1"⟩]
  testHost := .free ⟨"h", "e"⟩
  dutHost := .free ⟨"d", "e"⟩
  laid := false

end PatchPanel
