import PatchPanel.OpenFlow.Rule
import PatchPanel.OpenFlow.Version

/-!
Rules in the making. A rule is made by steps, each of which adds a condition or an action in the
encoding of an OpenFlow version. From OpenFlow 1.2 on, taking a VLAN tag off needs one rule for ARP
and one for IP, so a draft keeps the conditions of both and yields two rules once they part.
-/
namespace PatchPanel

/-- A step in making a rule. -/
inductive Step where
  | priority (value : UInt16)
  | inPort (port : UInt32)
  | ethSrc (address : String)
  | ethDst (address : String)
  | vlanVid (vlanVid : UInt16)
  | mplsLabel (label : UInt32)
  | output (port : UInt32)
  | setVlan (vlanVid : UInt16)
  | pushVlan (vlanVid : UInt16)
  | popVlan
  | pushMpls (label : UInt32)
  | popMpls
  deriving DecidableEq, Repr

/-- What cannot be asked of a switch. -/
inductive ControllerFault where
  | unsupportedVersion (n : UInt8)
  | unknownCommand (name : String)
  | unsupportedAction (name : String) (version : Version)
  deriving DecidableEq, Repr

/-- A byte in hexadecimal, with two digits. -/
def hexByteText (n : UInt8) : String :=
  String.ofList ['0', 'x', Nat.digitChar (n.toNat / 16), Nat.digitChar (n.toNat % 16)]

/-- The message about what cannot be asked of a switch. -/
def ControllerFault.message : ControllerFault → String
  | .unsupportedVersion n => "Unsupported OFP version: " ++ hexByteText n
  | .unknownCommand name => "Unknown command: " ++ name
  | .unsupportedAction name version =>
    "Action '" ++ name ++ "' is not supported by " ++ version.tag

/-- A rule in the making: the conditions and actions of its ARP and its IP form, which are two rules
when the draft is forked, and the priority of both. -/
structure Draft where
  version : Version
  priority : Option UInt16
  arp : Match
  ip : Match
  arpActions : List Action
  ipActions : List Action
  forked : Bool
  deriving DecidableEq, Repr

namespace Draft

/-- A draft without conditions and actions. -/
def start (version : Version) : Draft := ⟨version, none, .any, .any, [], [], false⟩

/-- The draft with a change to the conditions of both forms. -/
def onMatch (d : Draft) (change : Match → Match) : Draft :=
  { d with arp := change d.arp, ip := change d.ip }

/-- The draft with more actions behind those of both forms. -/
def act (d : Draft) (actions : List Action) : Draft :=
  { d with arpActions := d.arpActions ++ actions, ipActions := d.ipActions ++ actions }

/-- The draft with one rule for ARP and one for IP. -/
def fork (d : Draft) : Draft :=
  { d with
    arp := { d.arp with ethType := some ethTypeArp }
    ip := { d.ip with ethType := some ethTypeIp }
    forked := true }

/-- A step in the encoding of OpenFlow 1.0. It has no MPLS, and setting a VLAN id also tags an
untagged frame. -/
def applyLegacy (d : Draft) : Step → Except ControllerFault Draft
  | .priority value => .ok { d with priority := some value }
  | .inPort port => .ok (d.onMatch fun m => { m with inPort := some port })
  | .ethSrc address => .ok (d.onMatch fun m => { m with dlSrc := some address })
  | .ethDst address => .ok (d.onMatch fun m => { m with dlDst := some address })
  | .vlanVid vlanVid => .ok (d.onMatch fun m => { m with dlVlan := some vlanVid })
  | .mplsLabel _ => .error (.unsupportedAction "mpls_label" d.version)
  | .output port => .ok (d.act [.output port])
  | .setVlan vlanVid | .pushVlan vlanVid => .ok (d.act [.setVlanVid vlanVid])
  | .popVlan => .ok (d.act [.stripVlan])
  | .pushMpls _ => .error (.unsupportedAction "push_mpls" d.version)
  | .popMpls => .error (.unsupportedAction "pop_mpls" d.version)

/-- The action that writes a VLAN id from OpenFlow 1.2 on. -/
def setVlanField (vlanVid : UInt16) : Action :=
  .setField "vlan_vid" (vlanPresent + vlanVid.toUInt32)

/-- A step in the encoding of OpenFlow 1.2 and 1.3. Tagged frames are matched as ARP unless a later
step says otherwise. -/
def applyModern (d : Draft) : Step → Draft
  | .priority value => { d with priority := some value }
  | .inPort port => d.onMatch fun m => { m with inPort := some port }
  | .ethSrc address => d.onMatch fun m => { m with ethSrc := some address }
  | .ethDst address => d.onMatch fun m => { m with ethDst := some address }
  | .vlanVid vlanVid =>
    d.onMatch fun m => { m with ethType := some ethTypeArp, vlanVid := some vlanVid }
  | .mplsLabel label =>
    d.onMatch fun m => { m with ethType := some ethTypeMpls, mplsLabel := some label }
  | .output port => d.act [.output port]
  | .setVlan vlanVid => d.act [setVlanField vlanVid]
  | .pushVlan vlanVid => d.act [.pushVlan ethTypeVlan, setVlanField vlanVid]
  | .popVlan => d.fork.act [.popVlan]
  | .pushMpls label => d.act [.pushMpls ethTypeMpls, .setField "mpls_label" label]
  | .popMpls => d.act [.popMpls ethTypeArp]

/-- A step in the encoding of the draft's version. -/
def apply (d : Draft) (step : Step) : Except ControllerFault Draft :=
  match d.version with
  | .v10 => d.applyLegacy step
  | .v12 | .v13 => .ok (d.applyModern step)

/-- Steps in order, up to the first that the version does not support. -/
def applyAll (d : Draft) : List Step → Except ControllerFault Draft
  | [] => .ok d
  | step :: steps =>
    match d.apply step with
    | .ok d => d.applyAll steps
    | .error fault => .error fault

/-- The draft after steps of which the unsupported ones change nothing. -/
def applyAny (d : Draft) (steps : List Step) : Draft :=
  steps.foldl (fun d step => (d.apply step).toOption.getD d) d

/-- The rules of a draft: one, or the ARP rule and the IP rule of a forked draft. -/
def rules (d : Draft) : List Rule :=
  let ip : Rule := ⟨d.priority, d.ip, d.ipActions⟩
  if d.forked then [⟨d.priority, d.arp, d.arpActions⟩, ip] else [ip]

end Draft
end PatchPanel
