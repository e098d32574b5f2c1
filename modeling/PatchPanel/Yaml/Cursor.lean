/-!
A place in a YAML text, with its line and column, and the classes of characters that decide how the
text is read.
-/
namespace PatchPanel.Yaml

def isBlank (c : Char) : Bool := c = ' ' || c = '\t'

/-- Characters that end a line, in a text whose usual line ends are all line feeds. -/
def isBreak (c : Char) : Bool := c = '\n' || c = '\u2028' || c = '\u2029'

/-- A character that a YAML text may have. -/
def isReadable (c : Char) : Bool :=
  c = '\t' || c = '\n' || c = '\r' || (0x20 ≤ c.toNat && c.toNat ≤ 0x7e) || c.toNat = 0x85 ||
    (0xa0 ≤ c.toNat && c.toNat ≤ 0xfffd && c.toNat != 0xfeff) || 0x10000 ≤ c.toNat

/-- A text with a line feed in the place of every other usual line end. -/
def normalizeBreaks : List Char → List Char
  | [] => []
  | '\r' :: '\n' :: text => '\n' :: normalizeBreaks text
  | '\r' :: text => '\n' :: normalizeBreaks text
  | c :: text => (if c = '\u0085' then '\n' else c) :: normalizeBreaks text

/-- A place in a text: what follows, and how far the place is from the beginning of the text and of
its line. -/
structure Cursor where
  rest : List Char
  index : Nat
  line : Nat
  column : Nat
  deriving Repr

namespace Cursor

def start (text : List Char) : Cursor := ⟨text, 0, 0, 0⟩

def peek (c : Cursor) (n : Nat) : Option Char := c.rest[n]?

def sees (c : Cursor) (char : Char) : Bool := c.rest.head? = some char

/-- The text has a blank, a line end or its own end `n` places ahead. -/
def gapAt (c : Cursor) (n : Nat) : Bool := (c.peek n).all fun char => isBlank char || isBreak char

/-- The text has a character of a class here. -/
def isAt (c : Cursor) (p : Char → Bool) : Bool := (c.peek 0).any p

/-- The place after `n` characters of the same line. -/
def advance (c : Cursor) (n : Nat) : Cursor :=
  { c with rest := c.rest.drop n, index := c.index + n, column := c.column + n }

/-- The place after a line end. -/
def nextLine (c : Cursor) : Cursor :=
  ⟨c.rest.drop 1, c.index + 1, c.line + 1, 0⟩

/-- The characters of a class from here on; the class has no line ends. -/
def takeWhile (c : Cursor) (p : Char → Bool) : List Char := c.rest.takeWhile p

/-- The place after all characters of a class; the class has no line ends. -/
def skipWhile (c : Cursor) (p : Char → Bool) : Cursor := c.advance (c.takeWhile p).length

def skipLine (c : Cursor) : Cursor := c.skipWhile (!isBreak ·)

/-- The line begins with a mark between documents. -/
def atDocumentMark (c : Cursor) (char : Char) : Bool :=
  c.column = 0 && c.rest.take 3 = [char, char, char] && c.gapAt 3

/-- The line begins with either mark between documents. -/
def atAnyDocumentMark (c : Cursor) : Bool := c.atDocumentMark '-' || c.atDocumentMark '.'

end Cursor
end PatchPanel.Yaml
