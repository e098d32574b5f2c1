import PatchPanel.OpenFlow.Draft
import PatchPanel.OpenFlow.Request

/-!
From a flow request to rules. The values of tags are checked first, then the steps follow in a
fixed order: priority, port, addresses, VLAN id, MPLS label, VLAN actions, MPLS actions, output.
-/
namespace PatchPanel

/-- Why no rules can be built for a request. -/
inductive BuildFault where
  | request (fault : RequestFault)
  | controller (fault : ControllerFault)
  deriving DecidableEq, Repr

def BuildFault.message : BuildFault → String
  | .request fault => "Request error: " ++ fault.message
  | .controller fault => "Controller error: " ++ fault.message

/-- The messages about a failed build and about its cause. -/
def BuildFault.messages (f : BuildFault) : List String :=
  match f with
  | .request fault => [f.message, fault.message]
  | .controller fault => [f.message, fault.message]

namespace Request

/-- The conditions of a request that takes frames from `inPort`. -/
def matchSteps (r : Request) (inPort : UInt32) : List Step :=
  (r.priority.map Step.priority).toList ++ [.inPort inPort] ++
    (r.ethSrc.map Step.ethSrc).toList ++ (r.ethDst.map Step.ethDst).toList ++
    (r.vlanVid.map Step.vlanVid).toList ++ (r.mplsLabel.map Step.mplsLabel).toList

/-- The changes to a frame that a request asks for. -/
def tagSteps (r : Request) : List Step :=
  (r.pushVlan.map Step.pushVlan).toList ++ (if r.popVlan then [.popVlan] else []) ++
    (r.setVlan.map Step.setVlan).toList ++ (r.pushMpls.map Step.pushMpls).toList ++
    (if r.popMpls then [.popMpls] else [])

def outputSteps (r : Request) : List Step := r.outputPorts.map Step.output

end Request

/-- The draft of a request after its conditions and the changes to a frame. -/
def draft (version : Version) (r : Request) (inPort : UInt32) : Except BuildFault Draft :=
  ((Draft.start version).applyAll (r.matchSteps inPort ++ r.tagSteps)).mapError .controller

/-- The rules of a request under a version. -/
def build (version : Version) (r : Request) : Except BuildFault (List Rule) := do
  r.check.mapError .request
  match r.inPort with
  | none => .error (.request .noInPort)
  | some inPort =>
    let d ← draft version r inPort
    if r.outputPorts.isEmpty then .error (.request .noOutPort)
    else
      let d ← (d.applyAll r.outputSteps).mapError .controller
      return d.rules

/-- The version that a switch has negotiated. -/
def negotiated (n : UInt8) : Except ControllerFault Version :=
  match Version.ofWire? n with
  | some version => .ok version
  | none => .error (.unsupportedVersion n)

/-- The rules of a request under a negotiated version. -/
def buildNegotiated (n : UInt8) (r : Request) : Except BuildFault (List Rule) := do
  let version ← (negotiated n).mapError .controller
  build version r

end PatchPanel
