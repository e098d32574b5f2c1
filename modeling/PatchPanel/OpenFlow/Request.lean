import PatchPanel.Json.Record

/-!
Flow requests: one switch's forwarding decision in flat form, with the conditions on a frame and
what is done to it. A request body is strict; tags outside their ranges are refused.
-/
namespace PatchPanel

/-- A forwarding decision of one switch. -/
structure Request where
  dpid : UInt64
  priority : Option UInt16
  inPort : Option UInt32
  outPort : Option UInt32
  outPorts : Option (List UInt32)
  ethSrc : Option String
  ethDst : Option String
  vlanVid : Option UInt16
  mplsLabel : Option UInt32
  pushVlan : Option UInt16
  setVlan : Option UInt16
  popVlan : Bool
  pushMpls : Option UInt32
  popMpls : Bool
  deriving DecidableEq, Repr

/-- Why a request is refused. -/
inductive RequestFault where
  | noInPort
  | noOutPort
  | unreadable (fault : Json.Fault)
  | badVlanId (field : String) (value : UInt16)
  | badMplsLabel (field : String) (value : UInt32)
  deriving DecidableEq, Repr

def RequestFault.message : RequestFault → String
  | .noInPort => "REST request does not include 'inport' key."
  | .noOutPort => "REST request does not include any outport(s) action."
  | .unreadable fault => "REST request body is invalid: " ++ fault.message
  | .badVlanId field value =>
    "REST request '" ++ field ++ "' is not a valid VLAN id (1-4095): " ++ toString value.toNat
  | .badMplsLabel field value =>
    "REST request '" ++ field ++ "' is not a valid MPLS label (0-1048575): " ++
      toString value.toNat

def maxVlanId : UInt16 := 4095

def maxMplsLabel : UInt32 := 0xFFFFF

namespace Request

/-- The request to forward from one port to another at a priority. -/
def forward (dpid : UInt64) (inPort outPort : UInt32) (priority : UInt16) : Request where
  dpid := dpid
  priority := some priority
  inPort := some inPort
  outPort := some outPort
  outPorts := none
  ethSrc := none
  ethDst := none
  vlanVid := none
  mplsLabel := none
  pushVlan := none
  setVlan := none
  popVlan := false
  pushMpls := none
  popMpls := false

/-- The ports that a frame leaves by: the list of ports unless it is empty, else the single port. -/
def outputPorts (r : Request) : List UInt32 :=
  match r.outPorts.getD [] with
  | [] => r.outPort.toList
  | ports => ports

/-- A VLAN id, where there is one, is from 1 to 4095. -/
def checkVlanId (field : String) : Option UInt16 → Except RequestFault Unit
  | none => .ok ()
  | some value =>
    if 1 ≤ value ∧ value ≤ maxVlanId then .ok () else .error (.badVlanId field value)

/-- An MPLS label, where there is one, has at most 20 bits. -/
def checkMplsLabel (field : String) : Option UInt32 → Except RequestFault Unit
  | none => .ok ()
  | some value => if value ≤ maxMplsLabel then .ok () else .error (.badMplsLabel field value)

/-- Check the ranges of all VLAN ids and then of all MPLS labels. -/
def check (r : Request) : Except RequestFault Unit := do
  checkVlanId "vlan_vid" r.vlanVid
  checkVlanId "push_vlan" r.pushVlan
  checkVlanId "set_vlan" r.setVlan
  checkMplsLabel "mpls_label" r.mplsLabel
  checkMplsLabel "push_mpls" r.pushMpls

open Json (Codec Field Fields)

/-- The types of the fields of a request. -/
abbrev FieldTypes : List Type :=
  [UInt64, Option UInt16, Option UInt32, Option UInt32, Option (List UInt32), Option String,
    Option String, Option UInt16, Option UInt32, Option UInt16, Option UInt16, Bool,
    Option UInt32, Bool]

def fields : Fields FieldTypes :=
  .cons (.required "dpid" .word64) <|
  .cons (.optional "priority" .word16) <|
  .cons (.optional "inport" .word32) <|
  .cons (.optional "outport" .word32) <|
  .cons (.optional "outports" (.list .word32)) <|
  .cons (.optional "eth_src" .string) <|
  .cons (.optional "eth_dst" .string) <|
  .cons (.optional "vlan_vid" .word16) <|
  .cons (.optional "mpls_label" .word32) <|
  .cons (.optional "push_vlan" .word16) <|
  .cons (.optional "set_vlan" .word16) <|
  .cons (.switch "pop_vlan") <|
  .cons (.optional "push_mpls" .word32) <|
  .cons (.switch "pop_mpls") .nil

/-- The request with the given values of its fields. -/
def ofRow : Json.Row FieldTypes → Request
  | (dpid, priority, inPort, outPort, outPorts, ethSrc, ethDst, vlanVid, mplsLabel, pushVlan,
      setVlan, popVlan, pushMpls, popMpls, _) =>
    { dpid, priority, inPort, outPort, outPorts, ethSrc, ethDst, vlanVid, mplsLabel, pushVlan,
      setVlan, popVlan, pushMpls, popMpls }

/-- The values of the fields of a request. -/
def toRow (r : Request) : Json.Row FieldTypes :=
  (r.dpid, r.priority, r.inPort, r.outPort, r.outPorts, r.ethSrc, r.ethDst, r.vlanVid,
    r.mplsLabel, r.pushVlan, r.setVlan, r.popVlan, r.pushMpls, r.popMpls, ())

/-- The codec of requests. Unknown keys are refused; the ranges of tags are not checked. -/
def codec : Codec Request := Codec.record "struct FlowRequest" true fields ofRow toRow

/-- Read a request body and check its tags. -/
def ofText (body : List Char) : Except RequestFault Request := do
  let r ← (Json.decode codec body).mapError .unreadable
  r.check
  return r

end Request

/-- The requests for each switch, in the order in which they were made. -/
abbrev RequestMap := SwitchMap Request

end PatchPanel
