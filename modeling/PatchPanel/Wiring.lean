import PatchPanel.Wiring.Group

/-!
All wires and groups of a wire file. The wires of a group are known and shared.
-/
namespace PatchPanel

/-- The wires and groups of a file, in file order. -/
structure Wiring where
  version : Version
  wires : Index Wire
  groups : Index Group
  deriving DecidableEq

namespace Wiring

def requireSection {α : Type} (name : String) : Option α → Except WiringFault α
  | some found => .ok found
  | none => .error (.missingSection name)

/-- A wire of a group has to be known and shared. -/
def checkWire (wires : Index Wire) (name : String) : Except GroupFault Unit :=
  match wires.get? name with
  | none => .error (.unknownWire name)
  | some w => if w.isShared then .ok () else .error (.notShared name)

/-- The wires of a group have to be known and shared; the first that is not is reported. -/
def checkWires (wires : Index Wire) : List String → Except GroupFault Unit
  | [] => .ok ()
  | name :: names => do
    checkWire wires name
    checkWires wires names

/-- The group of a file entry, with its wires checked. -/
def readGroup (version : Version) (wires : Index Wire) (name : String) (entry : GroupEntry) :
    Except GroupFault Group := do
  let g ← Group.ofEntry version name entry
  checkWires wires g.wires
  return g

/-- The wires and groups of a file, or its first fault. -/
def ofFile (version : Version) (file : WireFile) : Except WiringFault Wiring := do
  let wires ← requireSection "wire-index" file.wires
  let groups ← requireSection "wire-group-index" file.groups
  let wires ← wires.traverse fun name entry =>
    (Wire.ofEntry version name entry).mapError (.wire name)
  let groups ← groups.traverse fun name entry =>
    (readGroup version wires name entry).mapError (.group name)
  return ⟨version, wires, groups⟩

def lay (t : Topology) (w : Wiring) : Wiring := { w with wires := w.wires.map (·.lay t) }

/-- The wires that have their ports for themselves. -/
def exclusiveWires (w : Wiring) : List Wire := w.wires.values.filter Wire.isExclusive

/-- The names of the shared wires that are in no group. -/
def ungrouped (w : Wiring) : List String :=
  ((w.wires.values.filter Wire.isShared).map Wire.name).filter fun name =>
    !w.groups.values.any fun g => g.wires.contains name

def wiresOf (w : Wiring) (group : String) : List String → Except WiringFault (List Wire)
  | [] => .ok []
  | name :: names => do
    let first ←
      match w.wires.get? name with
      | some wire => .ok wire
      | none => .error (.group group (.unknownWire name))
    let rest ← w.wiresOf group names
    return first :: rest

def members (w : Wiring) (g : Group) : Except WiringFault (List Wire) := w.wiresOf g.name g.wires

/-- The number of the port by which a wire reaches its test host. -/
def hostPort (w : Wire) : Except WiringFault UInt32 :=
  (do
    let e ← w.hostEdge
    let b ← e.require
    return b.port.number : Except WireFault UInt32).mapError (.wire w.name)

/-- The numbers of the ports by which wires reach their test hosts. -/
def hostPorts : List Wire → Except WiringFault (List UInt32)
  | [] => .ok []
  | w :: ws => do
    let port ← hostPort w
    let ports ← hostPorts ws
    return port :: ports

/-- The numbers of the ports by which broadcasts of a group leave: one for each of its wires. -/
def broadcastPorts (w : Wiring) (g : Group) : Except WiringFault (List UInt32) := do
  let members ← w.members g
  hostPorts members

/-- The requests of a wire, with its name in a fault. -/
def wireRequests (w : Wire) : Except WiringFault RequestMap := w.requests.mapError (.wire w.name)

/-- The requests of wires, merged after those that are there already. -/
def mergeWires (requests : RequestMap) : List Wire → Except WiringFault RequestMap
  | [] => .ok requests
  | w :: ws => do
    let more ← wireRequests w
    mergeWires (requests.merge more) ws

def exclusiveRequests (w : Wiring) : Except WiringFault RequestMap :=
  mergeWires .empty w.exclusiveWires

/-- The broadcast requests of a group whose wires are `members`. -/
def broadcastRequests (w : Wiring) (g : Group) (members : List Wire) :
    Except WiringFault RequestMap :=
  match members with
  | [] => .error (.group g.name .noWires)
  | first :: _ => do
    let ports ← w.broadcastPorts g
    (g.broadcastRequests first ports).mapError (.wire first.name)

/-- The requests of groups, each those of its wires and then its broadcasts, merged after those that
are there already. -/
def mergeGroups (w : Wiring) (requests : RequestMap) : List Group → Except WiringFault RequestMap
  | [] => .ok requests
  | g :: gs => do
    let members ← w.members g
    let requests ← mergeWires requests members
    let broadcasts ← w.broadcastRequests g members
    w.mergeGroups (requests.merge broadcasts) gs

def sharedRequests (w : Wiring) : Except WiringFault RequestMap :=
  w.mergeGroups .empty w.groups.values

end Wiring
end PatchPanel
