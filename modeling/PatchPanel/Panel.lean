import PatchPanel.OpenFlow.Build
import PatchPanel.OpenFlow.FlowMod
import PatchPanel.Wiring

/-!
A patch panel: wires laid over a topology. It is compiled in two steps, to flow requests for each
switch and from these to rules for each switch.
-/
namespace PatchPanel

/-- Which wires are compiled. -/
inductive Selection where
  | all
  | exclusive
  | shared
  deriving DecidableEq, Repr

namespace Selection

def name : Selection → String
  | .all => "all"
  | .exclusive => "exclusive"
  | .shared => "shared"

def names : List (String × Selection) :=
  [("all", .all), ("exclusive", .exclusive), ("shared", .shared)]

def codec : Json.Codec Selection := Json.Codec.choice names name

/-- The selection has the exclusive wires in it. -/
def hasExclusive : Selection → Bool
  | .all | .exclusive => true
  | .shared => false

/-- The selection has the shared wires in it. -/
def hasShared : Selection → Bool
  | .all | .shared => true
  | .exclusive => false

end Selection

/-- What can be wrong with the files of a panel. -/
inductive DefinitionFault where
  | topology (fault : TopologyFault)
  | wiring (fault : WiringFault)
  deriving DecidableEq, Repr

/-- The message about a fault in the files of a panel. -/
def DefinitionFault.message : DefinitionFault → String
  | .topology fault => fault.message
  | .wiring fault => fault.message

/-- Why a panel cannot be compiled to rules. -/
inductive CompileFault where
  | definition (fault : DefinitionFault)
  | build (fault : BuildFault)
  deriving DecidableEq, Repr

/-- The message about a failed compilation. -/
def CompileFault.message : CompileFault → String
  | .definition fault => "Definition error: " ++ fault.message
  | .build fault => fault.message

/-- The messages about a failed compilation and about its cause. -/
def CompileFault.messages (f : CompileFault) : List String :=
  match f with
  | .definition fault => [f.message, fault.message]
  | .build fault => fault.messages

/-- The rules for each switch. -/
abbrev RuleMap := SwitchMap Rule

/-- A topology with wires laid over it. -/
structure Panel where
  topology : Topology
  wiring : Wiring

namespace Panel

/-- The panel of a topology file and a wire file. -/
def ofFiles (version : Version) (topology : TopologyFile) (wires : WireFile) :
    Except DefinitionFault Panel := do
  let t ← (Topology.ofFile topology).mapError .topology
  let w ← (Wiring.ofFile version wires).mapError .wiring
  return ⟨t, w.lay t⟩

/-- The requests for each switch: exclusive wires first, then each group with its wires and its
broadcasts. -/
def requests (p : Panel) (selection : Selection) : Except DefinitionFault RequestMap := do
  let exclusive ←
    if selection.hasExclusive then p.wiring.exclusiveRequests.mapError .wiring else .ok .empty
  let shared ←
    if selection.hasShared then p.wiring.sharedRequests.mapError .wiring else .ok .empty
  return ((SwitchMap.empty : RequestMap).merge exclusive).merge shared

def buildAll (version : Version) : List Request → Except BuildFault (List Rule)
  | [] => .ok []
  | r :: rest => do
    let rules ← build version r
    let more ← buildAll version rest
    return rules ++ more

def rules (p : Panel) (selection : Selection) : Except CompileFault RuleMap := do
  let requests ← (p.requests selection).mapError .definition
  (requests.traverse (buildAll p.wiring.version)).mapError .build

/-- The rules of a request as flow modifications of its switch. -/
def flowModsOf (version : Version) (command : Command) (e : String × Request) :
    Except BuildFault (List FlowMod) :=
  (build version e.2).map fun rules => rules.map fun rule => ⟨e.1, e.2.dpid, command, rule⟩

/-- The flow modifications of requests with their switches. -/
def flowModsOfAll (version : Version) (command : Command) :
    List (String × Request) → Except BuildFault (List FlowMod)
  | [] => .ok []
  | e :: rest => do
    let mods ← flowModsOf version command e
    let more ← flowModsOfAll version command rest
    return mods ++ more

/-- One rule for each switch that drops what no other rule takes. -/
def denyMods (p : Panel) (command : Command) : List FlowMod :=
  p.topology.switches.values.map fun node => ⟨node.name, node.datapathId, command, .defaultDeny⟩

/-- The flow modifications of all rules, switch by switch, behind the dropping rules of all switches
if these are asked for. -/
def flowMods (p : Panel) (selection : Selection) (command : Command) (deny : Bool) :
    Except CompileFault (List FlowMod) := do
  let requests ← (p.requests selection).mapError .definition
  let mods ← (flowModsOfAll p.wiring.version command requests.toList).mapError .build
  return (if deny then p.denyMods command else []) ++ mods

end Panel
end PatchPanel
