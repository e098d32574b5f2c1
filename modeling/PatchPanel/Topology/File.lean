import PatchPanel.Link
import PatchPanel.Json.Record

/-!
The form of a topology file: switches ("dispatchers"), test hosts, hosts under test and links, and
the data that each kind of port carries. Sections are optional here so that a missing one can be
named.
-/
namespace PatchPanel

/-- A switch with its datapath id and the data of its ports. -/
structure SwitchEntry where
  datapathId : UInt64
  ports : Index Json
  deriving DecidableEq

/-- A host with the data of its ports. -/
structure HostEntry where
  ports : Index Json
  deriving DecidableEq

/-- A topology file. -/
structure TopologyFile where
  switches : Option (Index SwitchEntry)
  testHosts : Option (Index HostEntry)
  dutHosts : Option (Index HostEntry)
  links : Option (List Link)
  deriving DecidableEq

/-- The data of a switch port. -/
structure SwitchPortEntry where
  number : UInt32
  deriving DecidableEq, Repr

/-- The data of a port on a test host. -/
structure TestHostPortEntry where
  mac : String
  ip : String
  gateway : Option String
  deriving DecidableEq, Repr

/-- The data of a port on a host under test. -/
structure DutHostPortEntry where
  vlanId : Option UInt32
  vlanTagged : Option Bool
  deriving DecidableEq, Repr

open Json (Codec Field Fields)

/-- The lists and objects around the data of a port: file, section, node and port list. -/
def portDataDepth : Nat := 4

/-- The codec of the data of a node's ports. -/
def portListCodec : Codec (Index Json) := Codec.index (Codec.data portDataDepth)

def SwitchEntry.codec : Codec SwitchEntry :=
  Codec.record "struct SwitchDefinition" false
    (.cons (.required "datapath-id" .word64) <|
      .cons (.required "port-index" portListCodec) .nil)
    (fun (datapathId, ports, _) => ⟨datapathId, ports⟩) (fun s => (s.datapathId, s.ports, ()))

def HostEntry.codec : Codec HostEntry :=
  Codec.record "struct HostDefinition" false
    (.cons (.required "port-index" portListCodec) .nil)
    (fun (ports, _) => ⟨ports⟩) (fun h => (h.ports, ()))

def TopologyFile.codec : Codec TopologyFile :=
  Codec.record "struct TopologyDefinition" false
    (.cons (.optional "dispatchers" (.index SwitchEntry.codec)) <|
      .cons (.optional "test-hosts" (.index HostEntry.codec)) <|
      .cons (.optional "dut-hosts" (.index HostEntry.codec)) <|
      .cons (.optional "link-list" (.list Link.codec)) .nil)
    (fun (switches, testHosts, dutHosts, links, _) => ⟨switches, testHosts, dutHosts, links⟩)
    (fun t => (t.switches, t.testHosts, t.dutHosts, t.links, ()))

/-- The codec of the data of a switch port. -/
def SwitchPortEntry.codec : Codec SwitchPortEntry :=
  Codec.record "struct SwitchPortData" false
    (.cons (.required "number" .word32) .nil)
    (fun (number, _) => ⟨number⟩) (fun d => (d.number, ()))

/-- The codec of the data of a port on a test host. -/
def TestHostPortEntry.codec : Codec TestHostPortEntry :=
  Codec.record "struct TestHostPortData" false
    (.cons (.required "mac-addr" .string) <|
      .cons (.required "ip-addr" .string) <|
      .cons (.nullable "gateway" .string) .nil)
    (fun (mac, ip, gateway, _) => ⟨mac, ip, gateway⟩) (fun d => (d.mac, d.ip, d.gateway, ()))

/-- The codec of the data of a port on a host under test. -/
def DutHostPortEntry.codec : Codec DutHostPortEntry :=
  Codec.record "struct DutHostPortData" false
    (.cons (.nullable "vlan-id" .word32) <|
      .cons (.nullable "vlan-tagged" .flag) .nil)
    (fun (vlanId, vlanTagged, _) => ⟨vlanId, vlanTagged⟩)
    (fun d => (d.vlanId, d.vlanTagged, ()))

end PatchPanel
