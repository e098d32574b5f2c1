import PatchPanel.Wiring.Requests

/-!
Groups of shared wires. A group is a broadcast domain: a broadcast from the host under test travels
along the first wire of the group under the group's id as VLAN id, and leaves towards the test hosts
of all wires of the group.
-/
namespace PatchPanel

/-- The priority of broadcast requests, below all others. -/
def broadcastPriority : UInt16 := 16535

/-- A group of wires. Its first wire carries the broadcasts. -/
structure Group where
  name : String
  id : UInt16
  wires : List String
  version : Version
  wires_ne_nil : wires ≠ []
  deriving DecidableEq

namespace Group

def requireKey {α : Type} (key : String) : Option α → Except GroupFault α
  | some value => .ok value
  | none => .error (.missingKey key)

/-- An id that can be used as a VLAN id. -/
def readId (id : UInt64) : Except GroupFault UInt16 :=
  if 1 ≤ id ∧ id ≤ 4095 then .ok id.toUInt16 else .error (.badId id)

/-- The group of a file entry, or the first fault: a missing key, a bad id, no wires. -/
def ofEntry (version : Version) (name : String) (entry : GroupEntry) : Except GroupFault Group := do
  let id ← requireKey "id" entry.id
  let wires ← requireKey "wires" entry.wires
  let id ← readId id
  if h : wires = [] then .error .noWires else return ⟨name, id, wires, version, h⟩

/-- The name of the wire that carries the broadcasts. -/
def representative (g : Group) : String := g.wires.head g.wires_ne_nil

def text (g : Group) : String :=
  "WireGroup: " ++ g.name ++ "(id:" ++ toString g.id.toNat ++ ")"

/-- A request that sends frames out of several ports. -/
def fanOut (ports : List UInt32) (r : Request) : Request :=
  { r with outPort := none, outPorts := some ports }

/-- A request with the group's id put on an untagged frame. -/
def pushId (g : Group) (r : Request) : Request :=
  if g.version.hasPushVlan then { r with pushVlan := some g.id } else { r with setVlan := some g.id }

/-- A request with the tag of a broadcast as it stands at the input and at the output of a hop.
Between the host under test and its edge a broadcast has the tag of that host, if it has one; on
the way it has the group's id; and behind the edge to the test hosts it has none. -/
def tagBroadcast (g : Group) (dutVlan : Option UInt16) (ports : List UInt32)
    (fromDut toHost : Bool) (r : Request) : Request :=
  match fromDut, toHost with
  | true, true =>
    fanOut ports <|
      match dutVlan with
      | some vlan => { r with vlanVid := some vlan, popVlan := true }
      | none => r
  | true, false =>
    match dutVlan with
    | some vlan => { r with vlanVid := some vlan, setVlan := some g.id }
    | none => g.pushId r
  | false, true => fanOut ports { r with vlanVid := some g.id, popVlan := true }
  | false, false => { r with vlanVid := some g.id }

def broadcastRequest (g : Group) (dutVlan : Option UInt16) (ports : List UInt32) (h : Hop) :
    Except WireFault Request := do
  let input ← h.input.require
  let output ← h.output.require
  let r := Request.forward input.datapathId input.port.number output.port.number broadcastPriority
  return g.tagBroadcast dutVlan ports input.port.isDutEdge output.port.isHostEdge
    { r with ethDst := some Address.broadcastMac }

/-- The broadcast requests along a wire, hop by hop. -/
def emitBroadcast (g : Group) (w : Wire) (ports : List UInt32) :
    Except WireFault (List Emission) := do
  let dut ← w.dutHostPort
  let hops ← w.hops .toHost
  Wire.emitHops (g.broadcastRequest dut.vlan? ports) hops

/-- The broadcast requests along a wire, for frames that leave by `ports`. -/
def broadcastRequests (g : Group) (w : Wire) (ports : List UInt32) : Except WireFault RequestMap :=
  (g.emitBroadcast w ports).map .ofList

end Group
end PatchPanel
