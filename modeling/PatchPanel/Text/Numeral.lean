/-!
Numerals in base ten and sixteen: the value of a digit, the number that a row of digits
stands for, and the numerals of a bounded number (an optional plus sign, then digits).
-/
namespace PatchPanel.Numeral

/-- The characters `0` to `9`; no other script's digits count. -/
def isDigit (c : Char) : Bool := '0' ≤ c ∧ c ≤ '9'

/-- The value of a decimal digit, zero for any other character. -/
def digitValue (c : Char) : Nat := if isDigit c then c.toNat - '0'.toNat else 0

/-- The value of a hexadecimal digit of either case. -/
def hexValue? (c : Char) : Option Nat :=
  if isDigit c then some (c.toNat - '0'.toNat)
  else if 'a' ≤ c ∧ c ≤ 'f' then some (c.toNat - 'a'.toNat + 10)
  else if 'A' ≤ c ∧ c ≤ 'F' then some (c.toNat - 'A'.toNat + 10)
  else none

/-- The characters `0` to `9`, `a` to `f` and `A` to `F`. -/
def isHexDigit (c : Char) : Bool := (hexValue? c).isSome

/-- The number that a row of decimal digits stands for, read on from `start`. -/
def ofDigits (start : Nat) (digits : List Char) : Nat :=
  digits.foldl (fun n c => n * 10 + digitValue c) start

/-- The number that a row of hexadecimal digits stands for, if every character is one. -/
def ofHexDigits? (digits : List Char) : Option Nat :=
  digits.foldlM (fun n c => (hexValue? c).map (n * 16 + ·)) 0

def decimal? (text : List Char) : Option Nat :=
  if !text.isEmpty && text.all isDigit then some (ofDigits 0 text) else none

/-- A row of at least one hexadecimal digit. -/
def hexadecimal? (text : List Char) : Option Nat :=
  if text.isEmpty then none else ofHexDigits? text

/-- The text without one leading plus sign. -/
def dropPlus : List Char → List Char
  | '+' :: digits => digits
  | digits => digits

/-- A numeral that one byte holds: an optional plus sign, then decimal digits of value at most
255. Leading zeros count for nothing. -/
def byte? (text : List Char) : Option Nat :=
  (decimal? (dropPlus text)).filter (· < 256)

/-- A hexadecimal numeral that one byte holds, with an optional plus sign. -/
def hexByte? (text : List Char) : Option Nat :=
  (hexadecimal? (dropPlus text)).filter (· < 256)

end PatchPanel.Numeral
