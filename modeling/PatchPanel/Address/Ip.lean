import PatchPanel.Text.Numeral
import PatchPanel.Text.Split

/-!
IP addresses of both families, with or without the length of a network prefix.
-/
namespace PatchPanel.Address

/-- A decimal number up to 255 without leading zeros. -/
def isOctet (text : List Char) : Bool :=
  text.length ≤ 3 && (text.head? != some '0' || text = ['0']) &&
    (Numeral.decimal? text).any (· < 256)

def isIpv4 (text : List Char) : Bool :=
  let octets := Text.pieces '.' text
  octets.length = 4 && octets.all isOctet

def isGroup (text : List Char) : Bool :=
  1 ≤ text.length && text.length ≤ 4 && text.all Numeral.isHexDigit

/-- The number of groups that the pieces between colons stand for, if they all are groups. The last
piece may be an IPv4 address, which stands for two groups. -/
def groupCount? (ipv4Last : Bool) : List (List Char) → Option Nat
  | [] => some 0
  | [last] => if isGroup last then some 1 else if ipv4Last && isIpv4 last then some 2 else none
  | group :: rest => if isGroup group then (groupCount? ipv4Last rest).map (· + 1) else none

/-- The number of groups that a text between colons stands for; an empty text stands for none. -/
def groups? (ipv4Last : Bool) (text : List Char) : Option Nat :=
  if text.isEmpty then some 0 else groupCount? ipv4Last (Text.pieces ':' text)

/-- Eight groups joined by colons, or fewer with one double colon that stands for all that are
missing, of which there is at least one. -/
def isIpv6 (text : List Char) : Bool :=
  match Text.cutDouble? ':' text with
  | none => groups? true text = some 8
  | some (head, tail) =>
    match groups? false head, groups? true tail with
    | some h, some t => h + t ≤ 7
    | _, _ => false

/-- The length of a network prefix, at most `limit`. -/
def isPrefixLength (limit : Nat) (text : List Char) : Bool :=
  (Numeral.byte? text).any (· ≤ limit)

/-- An IP address, with the length of a network prefix behind a slash or without one. -/
def isIp (text : String) : Bool :=
  match Text.cut? '/' text.toList with
  | none => isIpv4 text.toList || isIpv6 text.toList
  | some (address, length) =>
    (isIpv4 address && isPrefixLength 32 length) || (isIpv6 address && isPrefixLength 128 length)

end PatchPanel.Address
