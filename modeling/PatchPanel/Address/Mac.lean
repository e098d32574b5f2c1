import PatchPanel.Text.Numeral
import PatchPanel.Text.Split

/-!
MAC addresses: six groups of two hexadecimal digits, joined by colons.
-/
namespace PatchPanel.Address

def isMacGroup : List Char → Bool
  | [a, b] => Numeral.isHexDigit a && Numeral.isHexDigit b
  | _ => false

def isMac (text : String) : Bool :=
  let groups := Text.pieces ':' text.toList
  groups.length = 6 && groups.all isMacGroup

/-- The MAC address that all stations listen to. -/
def broadcastMac : String := "ff:ff:ff:ff:ff:ff"

end PatchPanel.Address
