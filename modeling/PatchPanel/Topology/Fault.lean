import PatchPanel.Topology.Node

/-!
What can be wrong with a topology file, and the messages that say so.
-/
namespace PatchPanel

/-- What can be wrong with a port. -/
inductive PortFault where
  | noLink
  | unknownFarNode (name : String)
  | notOnSwitch (kind far : NodeKind)
  | badData (fault : Json.Fault)
  | badMac (mac : String)
  | badIp (ip : String)
  deriving DecidableEq, Repr

/-- The message about a fault of the port at an endpoint. -/
def PortFault.message (e : Endpoint) : PortFault → String
  | .noLink => "Could not find link counterpart of Node,Port=" ++ e.pairText
  | .unknownFarNode name =>
    "Node,Port=" ++ e.pairText ++ " is linked to unknown node '" ++ name ++ "'"
  | .notOnSwitch kind far =>
    kind.name ++ ",Port=" ++ e.pairText ++ " does not connect switch (connected to " ++ far.name ++
      ")"
  | .badData fault =>
    "Node,Port=" ++ e.pairText ++ ": invalid port data: " ++ fault.message
  | .badMac mac => "Node,Port=" ++ e.pairText ++ ": invalid MAC address '" ++ mac ++ "'"
  | .badIp ip => "Node,Port=" ++ e.pairText ++ ": invalid IP address '" ++ ip ++ "'"

/-- What can be wrong with a topology file. -/
inductive TopologyFault where
  | missingSection (name : String)
  | duplicateNode (name : String)
  | port (endpoint : Endpoint) (fault : PortFault)
  deriving DecidableEq, Repr

/-- The message about a fault of a topology file. -/
def TopologyFault.message : TopologyFault → String
  | .missingSection name => "Could not find '" ++ name ++ "' data in node info"
  | .duplicateNode name => "Node '" ++ name ++ "' is defined more than once"
  | .port e fault => fault.message e

end PatchPanel
