import PatchPanel.OpenFlow.Draft

/-!
Flow modifications: a rule with the switch that it is for and what the switch shall do with it.
-/
namespace PatchPanel

/-- What a switch shall do with a rule. -/
inductive Command where
  | put
  | delete
  deriving DecidableEq, Repr

namespace Command

def name : Command → String
  | .put => "put"
  | .delete => "delete"

def names : List (String × Command) := [("put", .put), ("delete", .delete)]

/-- The command of a name in letters of either case; only ASCII letters have two. -/
def ofName (name : String) : Except ControllerFault Command :=
  match names.lookup (String.ofList (name.toList.map Char.toLower)) with
  | some command => .ok command
  | none => .error (.unknownCommand name)

/-- A command is written as its name in small letters. -/
def codec : Json.Codec Command := Json.Codec.choice names name

end Command

/-- A rule for a switch. -/
structure FlowMod where
  switch : String
  dpid : UInt64
  command : Command
  rule : Rule
  deriving DecidableEq, Repr

open Json (Codec Field Fields)

def FlowMod.codec : Codec FlowMod :=
  Codec.record "struct FlowMod" false
    (.cons (.required "switch" .string) <|
      .cons (.required "dpid" .word64) <|
      .cons (.required "command" Command.codec) <|
      .cons (.required "rule" (Rule.codec 1)) .nil)
    (fun (switch, dpid, command, rule, _) => ⟨switch, dpid, command, rule⟩)
    (fun m => (m.switch, m.dpid, m.command, m.rule, ()))

end PatchPanel
