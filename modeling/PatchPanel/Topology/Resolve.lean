import PatchPanel.Topology.Fault
import PatchPanel.Address.Mac
import PatchPanel.Address.Ip

/-!
From a topology file to a topology: names are checked to be distinct, and each port gets its role
from the node that its link leads to.
-/
namespace PatchPanel

/-- Nodes whose ports have roles, and the links between the ports. -/
structure Topology where
  switches : Index Node
  testHosts : Index Node
  dutHosts : Index Node
  links : LinkTable

namespace Topology

/-- All nodes: switches, then test hosts, then hosts under test. -/
def nodes (t : Topology) : List Node := t.switches.values ++ t.testHosts.values ++ t.dutHosts.values

def node? (t : Topology) (name : String) : Option Node :=
  (t.testHosts.get? name).or ((t.dutHosts.get? name).or (t.switches.get? name))

def hasNode (t : Topology) (name : String) : Bool :=
  t.testHosts.contains name || t.switches.contains name || t.dutHosts.contains name

def port? (t : Topology) (e : Endpoint) : Option Port :=
  (t.node? e.node).bind fun node => node.ports.get? e.port

def switchPort? (t : Topology) (e : Endpoint) : Option Port :=
  (t.switches.get? e.node).bind fun node => node.ports.get? e.port

end Topology

/-- Addresses of a test host port in their proper forms: first the MAC address is checked, then the
IP address, then the gateway if there is one. -/
def TestHostPortEntry.check (d : TestHostPortEntry) : Except PortFault TestHostPort :=
  if !Address.isMac d.mac then .error (.badMac d.mac)
  else if !Address.isIp d.ip then .error (.badIp d.ip)
  else
    match d.gateway with
    | none => .ok ⟨d.mac, d.ip, none⟩
    | some g => if Address.isIp g then .ok ⟨d.mac, d.ip, some g⟩ else .error (.badIp g)

def readPortData {α : Type} (codec : Json.Codec α) (data : Json) : Except PortFault α :=
  (codec.ofTree data).mapError .badData

/-- The role of a port with the given data on a node of the given kind, linked to a node of the
kind `far`. A host may only be linked to a switch. -/
def resolveRole (kind far : NodeKind) (data : Json) : Except PortFault PortRole :=
  match kind, far with
  | .switch, far => (readPortData SwitchPortEntry.codec data).map fun d => .switch far d.number
  | .testHost, .switch =>
    ((readPortData TestHostPortEntry.codec data).bind TestHostPortEntry.check).map .testHost
  | .dutHost, .switch =>
    (readPortData DutHostPortEntry.codec data).map fun d =>
      .dutHost ⟨d.vlanId.getD 0, d.vlanTagged.getD false⟩
  | .testHost, .testHost | .testHost, .dutHost | .dutHost, .testHost | .dutHost, .dutHost =>
    .error (.notOnSwitch kind far)

namespace TopologyFile

def require {α : Type} (name : String) : Option α → Except TopologyFault α
  | some found => .ok found
  | none => .error (.missingSection name)

end TopologyFile

/-- The sections of a topology file when all of them are there. -/
structure TopologySections where
  switches : Index SwitchEntry
  testHosts : Index HostEntry
  dutHosts : Index HostEntry
  links : LinkTable

namespace TopologySections

/-- The sections of a file; the first missing one is reported. -/
def ofFile (file : TopologyFile) : Except TopologyFault TopologySections := do
  let links ← TopologyFile.require "link-list" file.links
  let switches ← TopologyFile.require "dispatchers" file.switches
  let testHosts ← TopologyFile.require "test-hosts" file.testHosts
  let dutHosts ← TopologyFile.require "dut-hosts" file.dutHosts
  return ⟨switches, testHosts, dutHosts, .ofLinks links⟩

def names (s : TopologySections) : List String :=
  s.switches.names ++ s.testHosts.names ++ s.dutHosts.names

def kind? (s : TopologySections) (name : String) : Option NodeKind :=
  if s.testHosts.contains name then some .testHost
  else if s.dutHosts.contains name then some .dutHost
  else if s.switches.contains name then some .switch
  else none

/-- The kind of the node that the link of an endpoint leads to. -/
def farKind (s : TopologySections) (e : Endpoint) : Except PortFault NodeKind :=
  match s.links.farEnd? e with
  | none => .error .noLink
  | some far =>
    match s.kind? far.node with
    | none => .error (.unknownFarNode far.node)
    | some kind => .ok kind

def resolvePort (s : TopologySections) (kind : NodeKind) (e : Endpoint) (data : Json) :
    Except PortFault Port := do
  let far ← s.farKind e
  let role ← resolveRole kind far data
  return ⟨e.port, data, role⟩

def resolveNode (s : TopologySections) (kind : NodeKind) (datapathId : UInt64)
    (ports : Index Json) (name : String) : Except TopologyFault Node := do
  let ports ← ports.traverse fun port data =>
    (s.resolvePort kind ⟨name, port⟩ data).mapError (.port ⟨name, port⟩)
  return ⟨name, kind, datapathId, ports⟩

/-- All nodes with the roles of their ports. -/
def resolve (s : TopologySections) : Except TopologyFault Topology := do
  let switches ← s.switches.traverse fun name entry =>
    s.resolveNode .switch entry.datapathId entry.ports name
  let testHosts ← s.testHosts.traverse fun name entry =>
    s.resolveNode .testHost 0 entry.ports name
  let dutHosts ← s.dutHosts.traverse fun name entry =>
    s.resolveNode .dutHost 0 entry.ports name
  return ⟨switches, testHosts, dutHosts, s.links⟩

end TopologySections

/-- The first name of a list that stands earlier in it already, after the names in `earlier`. -/
def firstRepeated? (earlier : List String) : List String → Option String
  | [] => none
  | name :: names =>
    if earlier.contains name then some name else firstRepeated? (name :: earlier) names

/-- The topology of a file, or the first fault of the file: a missing section, a name that two nodes
have, a fault of a port. -/
def Topology.ofFile (file : TopologyFile) : Except TopologyFault Topology := do
  let sections ← TopologySections.ofFile file
  match firstRepeated? [] sections.names with
  | some name => .error (.duplicateNode name)
  | none => sections.resolve

end PatchPanel
