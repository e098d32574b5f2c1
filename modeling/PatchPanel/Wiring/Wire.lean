import PatchPanel.OpenFlow.Version
import PatchPanel.Topology.Resolve
import PatchPanel.Wiring.Fault
import PatchPanel.Wiring.File

/-!
Wires: a path of endpoints between a test host and a host under test. Laying a wire over a topology
binds each endpoint to the port that it names there, if there is one.
-/
namespace PatchPanel

/-- How a wire uses the ports of its path: alone, or together with other wires. -/
inductive WireMode where
  | exclusive
  | shared
  deriving DecidableEq, Repr

namespace WireMode

def name : WireMode → String
  | .exclusive => "exclusive"
  | .shared => "shared"

def names : List (String × WireMode) := [("exclusive", .exclusive), ("shared", .shared)]

def ofName? (name : String) : Option WireMode := names.lookup name

def codec : Json.Codec WireMode := Json.Codec.choice names name

end WireMode

/-- A port in a topology with what a wire has to know of its node. -/
structure BoundPort where
  kind : NodeKind
  datapathId : UInt64
  port : Port
  deriving DecidableEq

/-- The port that an endpoint names in a topology. -/
def Topology.bound? (t : Topology) (e : Endpoint) : Option BoundPort :=
  (t.node? e.node).bind fun node =>
    (node.ports.get? e.port).map fun port => ⟨node.kind, node.datapathId, port⟩

/-- An endpoint of a wire with the port that it is bound to. -/
structure Element where
  endpoint : Endpoint
  bound : Option BoundPort
  deriving DecidableEq

namespace Element

def free (e : Endpoint) : Element := ⟨e, none⟩

/-- The element bound to the port that it names in a topology. -/
def bind (t : Topology) (e : Element) : Element := ⟨e.endpoint, t.bound? e.endpoint⟩

/-- The port that the element names, which has to be bound. -/
def require (e : Element) : Except WireFault BoundPort :=
  match e.bound with
  | some b => .ok b
  | none => .error (.unknownHop e.endpoint)

def text (e : Element) : String := "LinkElm: " ++ e.endpoint.text

end Element

/-- A wire. It is `laid` once it was laid over a topology. -/
structure Wire where
  name : String
  mode : WireMode
  version : Version
  path : List Element
  testHost : Element
  dutHost : Element
  laid : Bool
  deriving DecidableEq

namespace Wire

def requireKey {α : Type} (key : String) : Option α → Except WireFault α
  | some value => .ok value
  | none => .error (.missingKey key)

def readMode (mode : String) : Except WireFault WireMode :=
  match WireMode.ofName? mode with
  | some m => .ok m
  | none => .error (.badMode mode)

/-- The wire of a file entry; the first missing key or the unknown mode is reported. -/
def ofEntry (version : Version) (name : String) (entry : WireEntry) : Except WireFault Wire := do
  let mode ← requireKey "mode" entry.mode
  let mode ← readMode mode
  let path ← requireKey "path" entry.path
  let testHost ← requireKey "test-host-port" entry.testHostPort
  let dutHost ← requireKey "dut-host-port" entry.dutHostPort
  return ⟨name, mode, version, path.map .free, .free testHost, .free dutHost, false⟩

/-- The wire laid over a topology, with all its elements bound there. -/
def lay (t : Topology) (w : Wire) : Wire :=
  { w with
    path := w.path.map (·.bind t)
    testHost := w.testHost.bind t
    dutHost := w.dutHost.bind t
    laid := true }

def isExclusive (w : Wire) : Bool := w.mode = .exclusive

def isShared (w : Wire) : Bool := w.mode = .shared

def text (w : Wire) : String := "Wire: " ++ w.name ++ "(" ++ w.mode.name ++ ")"

/-- The fault of a wire without hops. -/
def noHops (w : Wire) : WireFault := .noHops (w.path.map Element.endpoint)

/-- The test host port at the one end of the wire. -/
def testHostPort (w : Wire) : Except WireFault TestHostPort := do
  let b ← w.testHost.require
  match b.port.testHost? with
  | some p => .ok p
  | none => .error (.badEnd .testHost w.testHost.endpoint)

/-- The port on the host under test at the other end of the wire. -/
def dutHostPort (w : Wire) : Except WireFault DutHostPort := do
  let b ← w.dutHost.require
  match b.port.dutHost? with
  | some p => .ok p
  | none => .error (.badEnd .dutHost w.dutHost.endpoint)

end Wire
end PatchPanel
