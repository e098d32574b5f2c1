import PatchPanel.OpenFlow.Request
import PatchPanel.Wiring.Hop

/-!
The flow requests of a wire. An exclusive wire forwards whatever comes in at a port. A shared wire
goes by the address of its test host besides, and where the host under test is on a tagged port,
the hop next to it puts the tag on or takes it off.
-/
namespace PatchPanel

/-- The priority of requests of exclusive wires, above all others. -/
def exclusivePriority : UInt16 := 65535

/-- The priority of requests of shared wires. -/
def sharedPriority : UInt16 := 32767

/-- A request with the node that it is for. -/
abbrev Emission := String × Request

namespace Wire

/-- The request of a hop of an exclusive wire. -/
def exclusiveRequest (h : Hop) : Except WireFault Request := do
  let input ← h.input.require
  let output ← h.output.require
  return .forward input.datapathId input.port.number output.port.number exclusivePriority

/-- A request with the VLAN tag of the host under test put on or taken off. Before the version
that pushes tags, setting a VLAN id puts one on. -/
def changeTag (version : Version) (direction : Direction) (vlan : UInt16) (r : Request) :
    Request :=
  match direction with
  | .toHost => { r with vlanVid := some vlan, popVlan := true }
  | .toDut =>
    if version.hasPushVlan then { r with pushVlan := some vlan } else { r with setVlan := some vlan }

/-- A request with the address of the test host as source or destination. -/
def addressed (direction : Direction) (mac : String) (r : Request) : Request :=
  match direction with
  | .toDut => { r with ethSrc := some mac }
  | .toHost => { r with ethDst := some mac }

/-- The request of a hop of a shared wire. -/
def sharedRequest (version : Version) (mac : String) (vlan : Option UInt16)
    (direction : Direction) (h : Hop) : Except WireFault Request := do
  let input ← h.input.require
  let output ← h.output.require
  let r := addressed direction mac
    (.forward input.datapathId input.port.number output.port.number sharedPriority)
  let dutSide := match direction with
    | .toDut => output.port
    | .toHost => input.port
  match dutSide.isDutEdge, vlan with
  | true, some vlan => return changeTag version direction vlan r
  | _, _ => return r

/-- The requests of the hops in a list, each with its node. -/
def emitHops (request : Hop → Except WireFault Request) :
    List Hop → Except WireFault (List Emission)
  | [] => .ok []
  | h :: hops => do
    let r ← request h
    let rest ← emitHops request hops
    return (h.node, r) :: rest

/-- The requests of a direction, hop by hop. -/
def emit (w : Wire) (direction : Direction) : Except WireFault (List Emission) := do
  let hops ← w.hops direction
  match w.mode with
  | .exclusive => emitHops exclusiveRequest hops
  | .shared =>
    let host ← w.testHostPort
    let dut ← w.dutHostPort
    emitHops (sharedRequest w.version host.mac dut.vlan? direction) hops

/-- The requests of a wire that is laid over a topology: those towards the host under test, then
those back. -/
def requests (w : Wire) : Except WireFault RequestMap :=
  if w.laid then do
    let there ← w.emit .toDut
    let back ← w.emit .toHost
    return .ofList (there ++ back)
  else .error .unbound

end Wire
end PatchPanel
