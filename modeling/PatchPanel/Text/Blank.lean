/-!
Texts of white space alone. White space is what Unicode lists under that property: the control
characters of spacing, the blanks of all scripts, and the separators of lines and paragraphs.
-/
namespace PatchPanel.Text

/-- The code points of white space, as ranges with both ends. -/
def blankRanges : List (Nat × Nat) :=
  [(0x9, 0xd), (0x20, 0x20), (0x85, 0x85), (0xa0, 0xa0), (0x1680, 0x1680), (0x2000, 0x200a),
    (0x2028, 0x2029), (0x202f, 0x202f), (0x205f, 0x205f), (0x3000, 0x3000)]

def isBlank (c : Char) : Bool := blankRanges.any fun range => range.1 ≤ c.toNat ∧ c.toNat ≤ range.2

/-- A text that has nothing but white space, or nothing at all. -/
def allBlank (text : String) : Bool := text.toList.all isBlank

end PatchPanel.Text
