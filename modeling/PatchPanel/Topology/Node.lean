import PatchPanel.Topology.File

/-!
Nodes and their ports. What a port does follows from the kind of its node and, on a switch, from
the kind of the node that its link leads to.
-/
namespace PatchPanel

/-- The kinds of nodes. -/
inductive NodeKind where
  | testHost
  | dutHost
  | switch
  deriving DecidableEq, Repr

def NodeKind.name : NodeKind → String
  | .testHost => "test-host"
  | .dutHost => "dut-host"
  | .switch => "switch"

/-- The addresses of a port on a test host. -/
structure TestHostPort where
  mac : String
  ip : String
  gateway : Option String
  deriving DecidableEq, Repr

/-- The VLAN setting of a port on a host under test. -/
structure DutHostPort where
  vlanId : UInt32
  vlanTagged : Bool
  deriving DecidableEq, Repr

namespace DutHostPort

/-- The port is a trunk with a usable VLAN id. -/
def hasVlan (p : DutHostPort) : Bool := p.vlanTagged && 0 < p.vlanId && p.vlanId < 4096

def vlan? (p : DutHostPort) : Option UInt16 :=
  if p.hasVlan then some p.vlanId.toUInt16 else none

end DutHostPort

/-- What a port is for: a numbered switch port that faces a node of some kind, or a port on one of
the two kinds of hosts. -/
inductive PortRole where
  | switch (facing : NodeKind) (number : UInt32)
  | testHost (p : TestHostPort)
  | dutHost (p : DutHostPort)
  deriving DecidableEq, Repr

def PortRole.name : PortRole → String
  | .switch .testHost _ => "host-edge"
  | .switch .dutHost _ => "dut-edge"
  | .switch .switch _ => "inter-switch"
  | .testHost _ => "test-host"
  | .dutHost _ => "dut-host"

/-- A port with the data that the topology file has for it. -/
structure Port where
  name : String
  data : Json
  role : PortRole
  deriving DecidableEq

namespace Port

/-- The OpenFlow number of a port; hosts have none and count as zero. -/
def number (p : Port) : UInt32 :=
  match p.role with
  | .switch _ number => number
  | .testHost _ | .dutHost _ => 0

/-- The port is a switch port that faces a test host. -/
def isHostEdge (p : Port) : Bool :=
  match p.role with
  | .switch .testHost _ => true
  | _ => false

/-- The port is a switch port that faces a host under test. -/
def isDutEdge (p : Port) : Bool :=
  match p.role with
  | .switch .dutHost _ => true
  | _ => false

/-- The port is a switch port that faces a switch. -/
def isInterSwitch (p : Port) : Bool :=
  match p.role with
  | .switch .switch _ => true
  | _ => false

/-- The addresses of a port on a test host. -/
def testHost? (p : Port) : Option TestHostPort :=
  match p.role with
  | .testHost a => some a
  | _ => none

/-- The VLAN setting of a port on a host under test. -/
def dutHost? (p : Port) : Option DutHostPort :=
  match p.role with
  | .dutHost d => some d
  | _ => none

def text (p : Port) : String :=
  "Port:\x7b name:" ++ p.name ++ ", role:" ++ p.role.name ++ ", data:" ++ p.data.toText ++ " \x7d"

end Port

/-- A node with its ports. -/
structure Node where
  name : String
  kind : NodeKind
  datapathId : UInt64
  ports : Index Port
  deriving DecidableEq

def Node.text (n : Node) : String :=
  "Node: " ++ n.name ++ " (dpid:" ++ toString n.datapathId.toNat ++ ")"

open Json (Codec)

/-- The addresses of a port on a test host, as members of an object. -/
def TestHostPort.members (p : TestHostPort) : List (String × Json) :=
  [("mac_addr", .string p.mac), ("ip_addr", .string p.ip),
    ("gateway", (Codec.optional .string).write p.gateway)]

/-- The VLAN setting of a port on a host under test, as members of an object. -/
def DutHostPort.members (p : DutHostPort) : List (String × Json) :=
  [("vlan_id", Codec.word32.write p.vlanId), ("vlan_tagged", .bool p.vlanTagged)]

/-- A role as an object: its name, and what belongs to a host port beside it. -/
def PortRole.tree (r : PortRole) : Json :=
  .object (("role", .string r.name) ::
    match r with
    | .switch _ _ => []
    | .testHost p => p.members
    | .dutHost p => p.members)

def Port.tree (p : Port) : Json :=
  .object [("name", .string p.name), ("data", p.data),
    ("number", Codec.word32.write p.number), ("role", p.role.tree)]

end PatchPanel
