import PatchPanel.Json.Record

/-!
Flow rules as switches take them: a priority, the conditions on a frame and a list of actions.
OpenFlow 1.0 and the later versions use different conditions and actions of one form.
-/
namespace PatchPanel

def ethTypeIp : UInt16 := 0x0800

def ethTypeArp : UInt16 := 0x0806

def ethTypeVlan : UInt16 := 0x8100

def ethTypeMpls : UInt16 := 0x8847

/-- The bit that marks a written VLAN id as one that is there. -/
def vlanPresent : UInt32 := 0x1000

/-- Conditions on a frame. The `dl` conditions are those of OpenFlow 1.0, the others except
`inPort` those of later versions. -/
structure Match where
  inPort : Option UInt32
  dlSrc : Option String
  dlDst : Option String
  dlVlan : Option UInt16
  ethSrc : Option String
  ethDst : Option String
  ethType : Option UInt16
  vlanVid : Option UInt16
  mplsLabel : Option UInt32
  deriving DecidableEq, Repr

def Match.any : Match := ⟨none, none, none, none, none, none, none, none, none⟩

/-- The match has no condition, so every frame meets it. -/
def Match.isAny (m : Match) : Bool := m = .any

/-- An action on a frame. -/
inductive Action where
  | output (port : UInt32)
  | setVlanVid (vlanVid : UInt16)
  | stripVlan
  | pushVlan (ethType : UInt16)
  | popVlan
  | pushMpls (ethType : UInt16)
  | popMpls (ethType : UInt16)
  | setField (field : String) (value : UInt32)
  deriving DecidableEq, Repr

/-- A flow rule. -/
structure Rule where
  priority : Option UInt16
  conditions : Match
  actions : List Action
  deriving DecidableEq, Repr

namespace Rule

/-- The rule that drops all frames that no other rule takes. -/
def defaultDeny : Rule := ⟨some 0, .any, []⟩

/-- The rule has no action, so it drops its frames. -/
def isDrop (r : Rule) : Bool := r.actions.isEmpty

/-- The ports of all output actions in order. -/
def outputPorts (r : Rule) : List UInt32 :=
  r.actions.filterMap fun
    | .output port => some port
    | _ => none

end Rule

open Json (Codec Field Fields)

def Match.codec : Codec Match :=
  Codec.record "struct FlowMatch" false
    (.cons (.optionalMember "in_port" .word32) <|
      .cons (.optionalMember "dl_src" .string) <|
      .cons (.optionalMember "dl_dst" .string) <|
      .cons (.optionalMember "dl_vlan" .word16) <|
      .cons (.optionalMember "eth_src" .string) <|
      .cons (.optionalMember "eth_dst" .string) <|
      .cons (.optionalMember "eth_type" .word16) <|
      .cons (.optionalMember "vlan_vid" .word16) <|
      .cons (.optionalMember "mpls_label" .word32) .nil)
    (fun (inPort, dlSrc, dlDst, dlVlan, ethSrc, ethDst, ethType, vlanVid, mplsLabel, _) =>
      ⟨inPort, dlSrc, dlDst, dlVlan, ethSrc, ethDst, ethType, vlanVid, mplsLabel⟩)
    (fun m => (m.inPort, m.dlSrc, m.dlDst, m.dlVlan, m.ethSrc, m.ethDst, m.ethType, m.vlanVid,
      m.mplsLabel, ()))

namespace Action

/-- The kinds of actions. -/
inductive Kind where
  | output
  | setVlanVid
  | stripVlan
  | pushVlan
  | popVlan
  | pushMpls
  | popMpls
  | setField
  deriving DecidableEq, Repr

def kinds : List (String × Kind) :=
  [("OUTPUT", .output), ("SET_VLAN_VID", .setVlanVid), ("STRIP_VLAN", .stripVlan),
    ("PUSH_VLAN", .pushVlan), ("POP_VLAN", .popVlan), ("PUSH_MPLS", .pushMpls),
    ("POP_MPLS", .popMpls), ("SET_FIELD", .setField)]

/-- The key under which an action has the name of its kind. -/
def kindKey : String := "type"

def readKind (o : Json.Outline) : Except Json.Fault Kind :=
  (Codec.readName o).bind (Codec.choose kinds)

/-- Read the one field of an action, from an object or a list. -/
def readOne {α : Type} (name label : String) (codec : Codec α) (content : Json) :
    Except Json.Fault α :=
  (Fields.read (.cons (.required name codec) .nil) ("struct variant Action::" ++ label) false
    .variant content.toOutline).map fun (a, _) => a

/-- An action without fields takes any object or list beside the name of its kind. -/
def readNone (content : Json) (a : Action) : Except Json.Fault Action :=
  match content with
  | .array items => (Json.Items.finish .variant 0 (Json.toItems items)).map fun () => a
  | _ => .ok a

/-- Read the fields of an action of a kind. -/
def readFields (kind : Kind) (content : Json) : Except Json.Fault Action :=
  match kind with
  | .output => (readOne "port" "Output" .word32 content).map .output
  | .setVlanVid => (readOne "vlan_vid" "SetVlanVid" .word16 content).map .setVlanVid
  | .stripVlan => readNone content .stripVlan
  | .pushVlan => (readOne "ethertype" "PushVlan" .word16 content).map .pushVlan
  | .popVlan => readNone content .popVlan
  | .pushMpls => (readOne "ethertype" "PushMpls" .word16 content).map .pushMpls
  | .popMpls => (readOne "ethertype" "PopMpls" .word16 content).map .popMpls
  | .setField =>
    (Fields.read (.cons (.required "field" .string) <| .cons (.required "value" .word32) .nil)
      "struct variant Action::SetField" false .variant content.toOutline).map
      fun (field, value, _) => .setField field value

/-- Collect the members of an action: the kind, which has its own key, and all others as data. -/
def collect (room : Nat) (kind : Option Kind) (others : List (String × Json)) :
    Json.Members → Except Json.Fault (Option Kind × List (String × Json))
  | .close => .ok (kind, others.reverse)
  | .cut reading _ => .error (.text reading)
  | .noKey _ => .error (.text .malformed)
  | .member none _ _ => .error (.text .malformed)
  | .member (some key) value rest =>
    if key = kindKey then
      match kind with
      | some _ => .error (.data (.duplicateField kindKey))
      | none =>
        match readKind value with
        | .ok kind => collect room (some kind) others rest
        | .error fault => .error fault
    else
      match value.tree room with
      | .ok tree => collect room kind ((key, tree) :: others) rest
      | .error fault => .error fault

/-- Read an action inside `depth` lists and objects. It is an object that has the name of its kind
under a key of its own, or a list that begins with that name. -/
def read (depth : Nat) : Json.Outline → Except Json.Fault Action
  | .object members => do
    let (kind, others) ← collect (Codec.maxDepth - depth - 1) none [] members
    match kind with
    | none => .error (.data (.missingField kindKey))
    | some kind => readFields kind (.object others)
  | .array (.item first rest) => do
    let kind ← readKind first
    let items ← rest.trees (Codec.maxDepth - depth - 1)
    readFields kind (.array items)
  | .array .close => .error (.data (.missingField kindKey))
  | .array (.cut b) => .error (.text b)
  | o => .error (o.unexpected "internally tagged enum Action")

def write : Action → Json
  | .output port => .object [(kindKey, .string "OUTPUT"), ("port", Codec.word32.write port)]
  | .setVlanVid vlanVid =>
    .object [(kindKey, .string "SET_VLAN_VID"), ("vlan_vid", Codec.word16.write vlanVid)]
  | .stripVlan => .object [(kindKey, .string "STRIP_VLAN")]
  | .pushVlan ethType =>
    .object [(kindKey, .string "PUSH_VLAN"), ("ethertype", Codec.word16.write ethType)]
  | .popVlan => .object [(kindKey, .string "POP_VLAN")]
  | .pushMpls ethType =>
    .object [(kindKey, .string "PUSH_MPLS"), ("ethertype", Codec.word16.write ethType)]
  | .popMpls ethType =>
    .object [(kindKey, .string "POP_MPLS"), ("ethertype", Codec.word16.write ethType)]
  | .setField field value =>
    .object [(kindKey, .string "SET_FIELD"), ("field", .string field),
      ("value", Codec.word32.write value)]

/-- The codec of actions inside `depth` lists and objects. -/
def codec (depth : Nat) : Codec Action := ⟨fun _ o => read depth o, write⟩

end Action

/-- The codec of rules inside `depth` lists and objects. -/
def Rule.codec (depth : Nat) : Codec Rule :=
  Codec.record "struct FlowRule" false
    (.cons (.optional "priority" .word16) <|
      .cons (.required "match" Match.codec) <|
      .cons (.required "actions" (.list (Action.codec (depth + 2)))) .nil)
    (fun (priority, conditions, actions, _) => ⟨priority, conditions, actions⟩)
    (fun r => (r.priority, r.conditions, r.actions, ()))

end PatchPanel
