import PatchPanel.Endpoint

/-!
What can be wrong with a wire file, and with a wire that is laid over a topology, and the messages
that say so.
-/
namespace PatchPanel

/-- The two ends of a wire. -/
inductive WireEnd where
  | testHost
  | dutHost
  deriving DecidableEq, Repr

/-- The name of an end, which is also that of the ports that it may have. -/
def WireEnd.name : WireEnd → String
  | .testHost => "test-host"
  | .dutHost => "dut-host"

/-- What can be wrong with a wire. -/
inductive WireFault where
  | missingKey (key : String)
  | badMode (mode : String)
  | unbound
  | unknownHop (endpoint : Endpoint)
  | noHops (path : List Endpoint)
  | ambiguous
  | badEnd (side : WireEnd) (endpoint : Endpoint)
  deriving DecidableEq, Repr

def pathText (path : List Endpoint) : String :=
  "[" ++ ", ".intercalate (path.map Endpoint.text) ++ "]"

def WireFault.message (wire : String) : WireFault → String
  | .missingKey key => "Wire:" ++ wire ++ " does not have key:" ++ key
  | .badMode mode => "Wire:" ++ wire ++ " have invalid 'mode': " ++ mode
  | .unbound => "Wire:" ++ wire ++ " is not resolved against the topology"
  | .unknownHop e =>
    "Wire:" ++ wire ++ ": node or port definition missing in path element " ++ e.pairText
  | .noHops path =>
    "Wire:" ++ wire ++ ": path element pairs not found for path " ++ pathText path
  | .ambiguous =>
    "Wire:" ++ wire ++ ": wire head/tail is same type: dut-edge or host-edge"
  | .badEnd side e =>
    "Wire:" ++ wire ++ ": " ++ side.name ++ " endpoint " ++ e.pairText ++ " is not a " ++ side.name ++
      " port"

/-- What can be wrong with a group of wires. -/
inductive GroupFault where
  | missingKey (key : String)
  | unknownWire (wire : String)
  | notShared (wire : String)
  | noWires
  | badId (id : UInt64)
  deriving DecidableEq, Repr

def GroupFault.message (group : String) : GroupFault → String
  | .missingKey key => "Wire group:" ++ group ++ " does not have key:" ++ key
  | .unknownWire wire => "Wire group:" ++ group ++ " refers to unknown wire '" ++ wire ++ "'"
  | .notShared wire =>
    "Wire group:" ++ group ++ ": member wire '" ++ wire ++ "' is not shared mode"
  | .noWires => "Wire group:" ++ group ++ " has no member wires"
  | .badId id =>
    "Wire group:" ++ group ++ ": id " ++ toString id.toNat ++
      " is not usable as a VLAN id (1-4095)"

/-- What can be wrong with wires and groups. -/
inductive WiringFault where
  | missingSection (name : String)
  | wire (name : String) (fault : WireFault)
  | group (name : String) (fault : GroupFault)
  deriving DecidableEq, Repr

/-- The message about a fault of wires and groups. -/
def WiringFault.message : WiringFault → String
  | .missingSection name => "Could not find '" ++ name ++ "' data in wire info"
  | .wire name fault => fault.message name
  | .group name fault => fault.message name

end PatchPanel
