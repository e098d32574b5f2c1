import PatchPanel.Json.Codec

/-!
The OpenFlow versions that rules are written for, by tag and by the number that switches send in
message headers.
-/
namespace PatchPanel

/-- An OpenFlow version. -/
inductive Version where
  | v10
  | v12
  | v13
  deriving DecidableEq, Repr

namespace Version

def tag : Version → String
  | .v10 => "OpenFlow10"
  | .v12 => "OpenFlow12"
  | .v13 => "OpenFlow13"

def tags : List (String × Version) :=
  [("OpenFlow10", .v10), ("OpenFlow12", .v12), ("OpenFlow13", .v13)]

def ofTag? (tag : String) : Option Version := tags.lookup tag

/-- The version number in message headers. -/
def wire : Version → UInt8
  | .v10 => 1
  | .v12 => 3
  | .v13 => 4

/-- The version of a number in a message header. -/
def ofWire? (n : UInt8) : Option Version :=
  if n = 1 then some .v10 else if n = 3 then some .v12 else if n = 4 then some .v13 else none

/-- Tags are put on frames by an action of their own. The first version has none: its action that
sets a VLAN id tags an untagged frame. -/
def hasPushVlan : Version → Bool
  | .v10 => false
  | .v12 | .v13 => true

def codec : Json.Codec Version := Json.Codec.choice tags tag

def unknownTagMessage (tag : String) : String :=
  "OpenFlow version unknown for generation wire flow rule: " ++ tag

end Version
end PatchPanel
