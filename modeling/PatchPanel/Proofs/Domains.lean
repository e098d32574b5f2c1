import PatchPanel.Proofs.Compiling

/-!
Where the broadcasts of two groups are told apart. On the way through the switches a broadcast has the id of
its group, and there groups of different ids have different conditions. At the port of a host under test it
has the tag of that host, whatever its group is, so there two groups have the same conditions as soon as they
share the port and the tag (`Panel.broadcasts_clash`).
-/
namespace PatchPanel

/-- Two requests have the same conditions on a frame and the same priority. -/
structure Request.Clashes (r s : Request) : Prop where
  inPort : r.inPort = s.inPort
  ethSrc : r.ethSrc = s.ethSrc
  ethDst : r.ethDst = s.ethDst
  vlanVid : r.vlanVid = s.vlanVid
  mplsLabel : r.mplsLabel = s.mplsLabel
  priority : r.priority = s.priority

namespace Group

/-- The tag of the broadcasts of a group where they enter a hop. -/
def tagAt (g : Group) (dutVlan : Option UInt16) (h : Hop) : Option UInt16 := if h.fromDut then dutVlan else some g.id

section
variable {g k : Group} {dutVlan otherVlan : Option UInt16} {ports others : List UInt32} {h h' : Hop} {e f : Emission}

theorem CarriesAt.inPort (carries : g.CarriesAt dutVlan ports h e) : e.2.inPort = h.inNumber? := by
  obtain ⟨a, input, _, port⟩ := carries.input
  rw [port, Hop.inNumber?, input]
  rfl

/-- Two broadcasts differ in nothing but the port and the tag. -/
theorem CarriesAt.clashes_iff (first : g.CarriesAt dutVlan ports h e) (second : k.CarriesAt otherVlan others h' f) :
    e.2.Clashes f.2 ↔ h.inNumber? = h'.inNumber? ∧ g.tagAt dutVlan h = k.tagAt otherVlan h' := by
  have tag : e.2.vlanVid = g.tagAt dutVlan h := first.tagIn
  have otherTag : f.2.vlanVid = k.tagAt otherVlan h' := second.tagIn
  rw [← first.inPort, ← second.inPort, ← tag, ← otherTag]
  constructor
  · intro clashes
    exact ⟨clashes.inPort, clashes.vlanVid⟩
  · rintro ⟨samePort, sameTag⟩
    constructor
    case inPort => exact samePort
    case ethSrc => rw [first.address.2, second.address.2]
    case ethDst => rw [first.address.1, second.address.1]
    case vlanVid => exact sameTag
    case mplsLabel => rw [first.noMpls.1, second.noMpls.1]
    case priority => rw [first.priority, second.priority]

end
end Group

namespace Wiring

/-- The broadcasts of a group are carried along hops, from a host under test with the given tag. -/
structure Carries (w : Wiring) (g : Group) (dutVlan : Option UInt16) (hs : List Hop) (es : List Emission) : Prop where
  emitted : w.emitted? (.broadcast g) = some es
  along : ∃ first dut ports, w.wires.get? g.representative = some first ∧ first.dutHostPort = .ok dut ∧
    dut.vlan? = dutVlan ∧ first.hops .toHost = .ok hs ∧ List.Forall₂ (g.CarriesAt dutVlan ports) hs es

theorem exists_carries {w : Wiring} {g : Group} {es : List Emission} (emitted : w.emitted? (.broadcast g) = some es) :
    ∃ dutVlan hs, w.Carries g dutVlan hs es := by
  obtain ⟨first, ports, found, _, made⟩ := emitted?_broadcast.mp emitted
  obtain ⟨dut, hs, ofDut, hops, each⟩ := Group.emitBroadcast_ok_iff.mp made
  exact ⟨dut.vlan?, hs, emitted, first, dut, ports, found, ofDut, rfl, hops,
    each.imp fun _ _ ⟨node, request⟩ => Group.carriesAt_of_request node request⟩

/-- Hops of two wires that enter by one port enter from a host under test together. -/
theorem fromDut_eq {free : Wiring} {t : Topology} {g k : Group} {dutVlan otherVlan : Option UInt16} {hs ks : List Hop}
    {es fs : List Emission} (first : (free.lay t).Carries g dutVlan hs es)
    (second : (free.lay t).Carries k otherVlan ks fs) {h h' : Hop} (member : h ∈ hs) (other : h' ∈ ks)
    (onePort : h.input.endpoint = h'.input.endpoint) : h.fromDut = h'.fromDut ∧ h.inNumber? = h'.inNumber? := by
  have boundHere : ∀ {g dutVlan hs es}, (free.lay t).Carries g dutVlan hs es → ∀ h ∈ hs,
      h.input.bound = t.bound? h.input.endpoint := by
    intro g dutVlan hs es carries h member
    obtain ⟨wire, _, _, found, _, _, hops, _⟩ := carries.along
    obtain ⟨w, _, rfl⟩ := get?_lay_eq_some_iff.mp found
    exact Wire.bound_of_mem_lay (Wire.mem_hops hops member).1
  have same : h.input.bound = h'.input.bound := by
    rw [boundHere first h member, boundHere second h' other, onePort]
  exact ⟨by rw [Hop.fromDut, same, Hop.fromDut], by rw [Hop.inNumber?, same, Hop.inNumber?]⟩

end Wiring

namespace Panel

/-- Broadcasts of two groups have the same conditions on a switch exactly where they enter it by ports of one
    number and under one tag. Groups of different ids never do so away from the hosts under test. Where both
    enter by one port of a host under test, they do so if the tags of their hosts are the same, whatever
    their ids are. -/
theorem broadcasts_clash {version : Version} {topology : TopologyFile} {wires : WireFile} {p : Panel}
    {selection : Selection} {m : RequestMap} {g k : Group} (read : ofFiles version topology wires = .ok p)
    (made : p.requests selection = .ok m) (shared : selection.hasShared = true) (member : g ∈ p.wiring.groups.values)
    (other : k ∈ p.wiring.groups.values) :
    ∃ dutVlan hs es otherVlan ks fs, p.wiring.Carries g dutVlan hs es ∧ p.wiring.Carries k otherVlan ks fs ∧
      (∀ e ∈ es, e.2 ∈ m.listOf e.1) ∧ (∀ f ∈ fs, f.2 ∈ m.listOf f.1) ∧
      ∀ h e h' f, (h, e) ∈ hs.zip es → (h', f) ∈ ks.zip fs →
        (e.1 = f.1 ∧ e.2.Clashes f.2 ↔
          h.node = h'.node ∧ h.inNumber? = h'.inNumber? ∧ g.tagAt dutVlan h = k.tagAt otherVlan h') ∧
        (g.id ≠ k.id → h.fromDut = false → h'.fromDut = false → ¬ e.2.Clashes f.2) ∧
        (h.input.endpoint = h'.input.endpoint →
          (e.2.Clashes f.2 ↔ if h.fromDut then dutVlan = otherVlan else g.id = k.id)) := by
  obtain ⟨sound, _⟩ := sound_of_ofFiles read
  obtain ⟨free, _, _, laid⟩ := ofFiles_ok_iff.mp read
  obtain ⟨es, emitted, listed⟩ := requests_of_origin sound made
    (Wiring.broadcast_mem_origins_iff.mpr ⟨shared, member⟩)
  obtain ⟨fs, otherEmitted, otherListed⟩ := requests_of_origin sound made
    (Wiring.broadcast_mem_origins_iff.mpr ⟨shared, other⟩)
  obtain ⟨dutVlan, hs, carries⟩ := Wiring.exists_carries emitted
  obtain ⟨otherVlan, ks, otherCarries⟩ := Wiring.exists_carries otherEmitted
  refine ⟨dutVlan, hs, es, otherVlan, ks, fs, carries, otherCarries, listed, otherListed, ?_⟩
  intro h e h' f inside otherInside
  obtain ⟨_, _, ports, _, _, _, _, each⟩ := carries.along
  obtain ⟨_, _, others, _, _, _, _, otherEach⟩ := otherCarries.along
  have first := (List.forall₂_iff_zip.mp each).2 inside
  have second := (List.forall₂_iff_zip.mp otherEach).2 otherInside
  have clashes := first.clashes_iff second
  refine ⟨?_, ?_, ?_⟩
  · rw [first.switch, second.switch, clashes]
  · intro differ inner otherInner clash
    have sameTag := (clashes.mp clash).2
    simp only [Group.tagAt, inner, otherInner, Bool.false_eq_true, ↓reduceIte, Option.some.injEq] at sameTag
    exact differ sameTag
  · intro onePort
    rw [laid] at carries otherCarries
    obtain ⟨sameSide, sameNumber⟩ := Wiring.fromDut_eq carries otherCarries (List.of_mem_zip inside).1
      (List.of_mem_zip otherInside).1 onePort
    rw [clashes, and_iff_right sameNumber, Group.tagAt, Group.tagAt, ← sameSide]
    cases h.fromDut <;> simp

/-- Both groups come from one tagged port: they clash there, and on the next switch they do not. -/
theorem broadcasts_clash_twin :
    ∃ p m g k dutVlan hs es otherVlan ks fs, ofFiles .v13 twinFile twinWires = .ok p ∧ p.requests .shared = .ok m ∧
      p.wiring.groups.get? "g1" = some g ∧ p.wiring.groups.get? "g2" = some k ∧
      p.wiring.Carries g dutVlan hs es ∧ p.wiring.Carries k otherVlan ks fs ∧
      (∃ h e h' f, (h, e) ∈ hs.zip es ∧ (h', f) ∈ ks.zip fs ∧ h.node = "s2" ∧ e.1 = f.1 ∧ e.2.Clashes f.2) ∧
      ∃ h e h' f, (h, e) ∈ hs.zip es ∧ (h', f) ∈ ks.zip fs ∧ h.node = "s1" ∧ h'.node = "s1" ∧
        h.inNumber? = h'.inNumber? ∧ ¬ e.2.Clashes f.2 := by
  obtain ⟨p, read⟩ : ∃ p, ofFiles .v13 twinFile twinWires = .ok p := ⟨_, rfl⟩
  obtain ⟨m, made⟩ : ∃ m, p.requests .shared = .ok m := by cases read; exact ⟨_, rfl⟩
  obtain ⟨g, found⟩ : ∃ g, p.wiring.groups.get? "g1" = some g := by cases read; exact ⟨_, rfl⟩
  obtain ⟨k, foundOther⟩ : ∃ k, p.wiring.groups.get? "g2" = some k := by cases read; exact ⟨_, rfl⟩
  have member : g ∈ p.wiring.groups.values := Index.mem_values.mpr ⟨_, found⟩
  have other : k ∈ p.wiring.groups.values := Index.mem_values.mpr ⟨_, foundOther⟩
  obtain ⟨dutVlan, hs, es, otherVlan, ks, fs, carries, otherCarries, _, _, each⟩ :=
    broadcasts_clash read made rfl member other
  refine ⟨p, m, g, k, dutVlan, hs, es, otherVlan, ks, fs, read, made, found, foundOther, carries, otherCarries, ?_⟩
  obtain ⟨wire, dut, _, ofGroup, ofDut, rfl, hops, _⟩ := carries.along
  obtain ⟨otherWire, otherDut, _, ofOther, ofOtherDut, rfl, otherHops, _⟩ := otherCarries.along
  have emitted := carries.emitted
  have otherEmitted := otherCarries.emitted
  clear carries otherCarries
  cases read
  cases found
  cases foundOther
  cases ofGroup
  cases ofOther
  cases ofDut
  cases ofOtherDut
  cases hops
  cases otherHops
  cases emitted
  cases otherEmitted
  have atPort := each _ _ _ _ List.mem_cons_self List.mem_cons_self
  have behind := each _ _ _ _ (List.mem_cons_of_mem _ List.mem_cons_self) (List.mem_cons_of_mem _ List.mem_cons_self)
  refine ⟨⟨_, _, _, _, List.mem_cons_self, List.mem_cons_self, rfl, atPort.1.mpr ⟨rfl, rfl, rfl⟩⟩,
    _, _, _, _, List.mem_cons_of_mem _ List.mem_cons_self, List.mem_cons_of_mem _ List.mem_cons_self, rfl, rfl, rfl,
    behind.2.1 (by decide) rfl rfl⟩

/-- Two groups with different ids ask for the same broadcasts at the port of the host under test. -/
theorem broadcasts_on_one_port_twin :
    ∃ p m g k e f, ofFiles .v13 twinFile twinWires = .ok p ∧ p.requests .shared = .ok m ∧
      p.wiring.groups.get? "g1" = some g ∧ p.wiring.groups.get? "g2" = some k ∧ g.id = 7 ∧ k.id = 8 ∧
      (∃ es, p.wiring.emitted? (.broadcast g) = some es ∧ e ∈ es) ∧
      (∃ fs, p.wiring.emitted? (.broadcast k) = some fs ∧ f ∈ fs) ∧
      e.2 ∈ m.listOf "s2" ∧ f.2 ∈ m.listOf "s2" ∧ e.1 = "s2" ∧ f.1 = "s2" ∧
      e.2.inPort = some 2 ∧ f.2.inPort = some 2 ∧ e.2.vlanVid = some 200 ∧ f.2.vlanVid = some 200 ∧
      e.2.setVlan = some 7 ∧ f.2.setVlan = some 8 := by
  obtain ⟨p, read⟩ : ∃ p, ofFiles .v13 twinFile twinWires = .ok p := ⟨_, rfl⟩
  obtain ⟨m, made⟩ : ∃ m, p.requests .shared = .ok m := by cases read; exact ⟨_, rfl⟩
  obtain ⟨g, found⟩ : ∃ g, p.wiring.groups.get? "g1" = some g := by cases read; exact ⟨_, rfl⟩
  obtain ⟨k, foundOther⟩ : ∃ k, p.wiring.groups.get? "g2" = some k := by cases read; exact ⟨_, rfl⟩
  obtain ⟨e, es, emitted⟩ : ∃ e es, p.wiring.emitted? (.broadcast g) = some (e :: es) := by
    cases read
    cases found
    exact ⟨_, _, rfl⟩
  obtain ⟨f, fs, otherEmitted⟩ : ∃ f fs, p.wiring.emitted? (.broadcast k) = some (f :: fs) := by
    cases read
    cases foundOther
    exact ⟨_, _, rfl⟩
  refine ⟨p, m, g, k, e, f, read, made, found, foundOther, ?_⟩
  cases read
  cases made
  cases found
  cases foundOther
  refine ⟨rfl, rfl, ⟨_, emitted, List.mem_cons_self⟩, ⟨_, otherEmitted, List.mem_cons_self⟩, ?_⟩
  cases emitted
  cases otherEmitted
  decide

end Panel
end PatchPanel
