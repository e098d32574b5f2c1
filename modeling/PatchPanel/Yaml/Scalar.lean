import PatchPanel.Text.Numeral
import PatchPanel.Yaml.Cursor

/-!
The scalars of YAML: plain, in single or double quotation marks, and blocks. A scalar that runs over
several lines is folded: one line end becomes a blank, and of several the first is dropped.
-/
namespace PatchPanel.Yaml

/-- The blanks and line ends between two words of a scalar: blanks before the first line end, that
line end, and the later ones. -/
structure Gap where
  blanks : List Char
  first : Option Char
  later : List Char
  deriving Repr

namespace Gap

def empty : Gap := ⟨[], none, []⟩

/-- The gap has a line end. -/
def broken (g : Gap) : Bool := g.first.isSome

/-- The gap as it is read: folded if it has a line end. -/
def text (g : Gap) : List Char :=
  match g.first with
  | none => g.blanks
  | some '\n' => if g.later.isEmpty then [' '] else g.later
  | some other => other :: g.later

end Gap

/-- Read a gap; blanks after a line end are dropped. A tab in the indentation, left of column
`indent`, is refused. -/
def readGap (indent : Nat) : Nat → Cursor → Gap → Option (Gap × Cursor)
  | 0, _, _ => none
  | fuel + 1, c, g =>
    match c.peek 0 with
    | none => some (g, c)
    | some char =>
      if isBlank char then
        if g.broken then
          if char = '\t' && c.column < indent then none else readGap indent fuel (c.advance 1) g
        else readGap indent fuel (c.advance 1) { g with blanks := g.blanks ++ [char] }
      else if isBreak char then
        if g.broken then readGap indent fuel c.nextLine { g with later := g.later ++ [char] }
        else readGap indent fuel c.nextLine { g with first := some char }
      else some (g, c)

/-- The number of steps that suffice for any walk over the rest of a text. -/
def Cursor.fuel (c : Cursor) : Nat := c.rest.length + 1

/-- Characters that end a plain scalar inside a list or mapping in brackets. -/
def isFlowEnd (c : Char) : Bool := c = ',' || c = '[' || c = ']' || c = '{' || c = '}'

/-- The characters of a plain scalar up to the next gap or to its end; none if a colon stands before
a bracket or comma. -/
def plainWord (inFlow : Bool) : List Char → Option (List Char)
  | [] => some []
  | c :: rest =>
    let next := rest.head?
    if isBlank c || isBreak c then some []
    else if inFlow && c = ':' && next.any (fun n => isFlowEnd n || n = '?') then none
    else if c = ':' && next.all (fun n => isBlank n || isBreak n) then some []
    else if inFlow && isFlowEnd c then some []
    else (plainWord inFlow rest).map (c :: ·)

/-- Read the words of a plain scalar behind `text` and `gap`. It goes on over lines that are
indented to column `indent` at least, up to a comment, a mark between documents or a character
that ends it. -/
def readPlain (inFlow : Bool) (indent : Nat) :
    Nat → Cursor → List Char → Gap → Option (List Char × Gap × Cursor)
  | 0, _, _, _ => none
  | fuel + 1, c, text, gap =>
    if c.atAnyDocumentMark || c.sees '#' then some (text, gap, c)
    else
      match plainWord inFlow c.rest with
      | none => none
      | some [] => some (text, gap, c)
      | some word =>
        let text := text ++ gap.text ++ word
        let c := c.advance word.length
        if c.isAt (fun char => isBlank char || isBreak char) then
          match readGap indent c.fuel c .empty with
          | none => none
          | some (gap, c) =>
            if !inFlow && c.column < indent then some (text, gap, c)
            else readPlain inFlow indent fuel c text gap
        else some (text, .empty, c)

/-- A plain scalar. The last part says whether the scalar is followed by a line end. -/
def plainScalar (inFlow : Bool) (indent : Nat) (c : Cursor) :
    Option (List Char × Bool × Cursor) :=
  (readPlain inFlow indent c.fuel c [] .empty).map fun (text, gap, c) => (text, gap.broken, c)

/-- The character of an escape by one letter in double quotation marks. -/
def letterEscape? (c : Char) : Option Char :=
  match c with
  | '0' => some '\x00'
  | 'a' => some '\x07'
  | 'b' => some '\x08'
  | 't' => some '\t'
  | '\t' => some '\t'
  | 'n' => some '\n'
  | 'v' => some '\x0b'
  | 'f' => some '\x0c'
  | 'r' => some '\r'
  | 'e' => some '\x1b'
  | ' ' => some ' '
  | '"' => some '"'
  | '/' => some '/'
  | '\\' => some '\\'
  | 'N' => some '\u0085'
  | '_' => some '\u00a0'
  | 'L' => some '\u2028'
  | 'P' => some '\u2029'
  | _ => none

/-- The number of hexadecimal digits of an escape by number. -/
def escapeLength? (c : Char) : Option Nat :=
  match c with
  | 'x' => some 2
  | 'u' => some 4
  | 'U' => some 8
  | _ => none

/-- The character that stands for an escape behind a backslash, and the length of the escape
without the backslash. -/
def escape? (text : List Char) : Option (Char × Nat) :=
  match text with
  | [] => none
  | c :: digits =>
    match letterEscape? c, escapeLength? c with
    | some char, _ => some (char, 1)
    | none, some n => do
      let digits := digits.take n
      if digits.length < n then none
      let value ← Numeral.ofHexDigits? digits
      if value.isValidChar then some (Char.ofNat value, n + 1) else none
    | none, none => none

/-- A part of a quoted scalar without blanks: its characters, whether it ends with an escaped line
end, and the place after it. -/
def readQuotedWord (quote : Char) : Nat → Cursor → List Char → Option (List Char × Bool × Cursor)
  | 0, _, _ => none
  | fuel + 1, c, text =>
    match c.rest with
    | [] => some (text, false, c)
    | char :: after =>
      if isBlank char || isBreak char then some (text, false, c)
      else if quote = '\'' && char = '\'' && after.head? = some '\'' then
        readQuotedWord quote fuel (c.advance 2) (text ++ ['\''])
      else if char = quote then some (text, false, c)
      else if quote = '"' && char = '\\' then
        if after.head?.any isBreak then some (text, true, (c.advance 1).nextLine)
        else
          match escape? after with
          | none => none
          | some (char, n) => readQuotedWord quote fuel (c.advance (n + 1)) (text ++ [char])
      else readQuotedWord quote fuel (c.advance 1) (text ++ [char])

/-- Read a gap behind an escaped line end: everything but further line ends is dropped. -/
def readEscapedGap : Nat → Cursor → List Char → List Char × Cursor
  | 0, c, later => (later, c)
  | fuel + 1, c, later =>
    match c.peek 0 with
    | none => (later, c)
    | some char =>
      if isBlank char then readEscapedGap fuel (c.advance 1) later
      else if isBreak char then readEscapedGap fuel c.nextLine (later ++ [char])
      else (later, c)

/-- Read a quoted scalar behind its opening mark. -/
def readQuoted (quote : Char) : Nat → Cursor → List Char → Option (List Char × Cursor)
  | 0, _, _ => none
  | fuel + 1, c, text =>
    if c.atAnyDocumentMark || c.rest.isEmpty then none
    else
      match readQuotedWord quote c.fuel c text with
      | none => none
      | some (text, escaped, c) =>
        if !escaped && c.sees quote then some (text, c.advance 1)
        else if escaped then
          let (later, c) := readEscapedGap c.fuel c []
          readQuoted quote fuel c (text ++ later)
        else
          match readGap 0 c.fuel c .empty with
          | none => none
          | some (gap, c) => readQuoted quote fuel c (text ++ gap.text)

def quotedScalar (quote : Char) (c : Cursor) : Option (List Char × Cursor) :=
  readQuoted quote c.fuel (c.advance 1) []

/-- What becomes of the line ends at the end of a block. -/
inductive Chomping where
  | strip
  | clip
  | keep
  deriving DecidableEq, Repr

/-- The indicators behind the mark of a block: how its end is chomped and by how much it is
indented. They may stand in either order. -/
def blockHeader (c : Cursor) : Option (Chomping × Option Nat × Cursor) :=
  let chomping? (c : Cursor) : Option Chomping :=
    if c.sees '+' then some .keep else if c.sees '-' then some .strip else none
  let digit? (c : Cursor) : Option Nat := (c.peek 0).bind fun d =>
    if Numeral.isDigit d then some (Numeral.digitValue d) else none
  match chomping? c with
  | some ch =>
    match digit? (c.advance 1) with
    | some 0 => none
    | some n => some (ch, some n, c.advance 2)
    | none => some (ch, none, c.advance 1)
  | none =>
    match digit? c with
    | some 0 => none
    | some n =>
      match chomping? (c.advance 1) with
      | some ch => some (ch, some n, c.advance 2)
      | none => some (.clip, some n, c.advance 1)
    | none => some (.clip, none, c)

/-- Read empty lines of a block whose indentation is `indent`, if that is known: the line ends, the
greatest column that was reached, and the place after them. -/
def readBlockBreaks (indent : Option Nat) :
    Nat → Cursor → Nat → List Char → Option (List Char × Nat × Cursor)
  | 0, _, _, _ => none
  | fuel + 1, c, widest, breaks =>
    let blanks := (c.takeWhile (· = ' ')).length
    let c := c.advance (match indent with
      | some n => min blanks (n - c.column)
      | none => blanks)
    let widest := max widest c.column
    if c.sees '\t' && indent.all (c.column < ·) then none
    else if c.isAt isBreak then
      readBlockBreaks indent fuel c.nextLine widest (breaks ++ c.rest.take 1)
    else some (breaks, widest, c)

/-- A line end of a block that is not written yet, and the line ends of empty lines behind it. -/
structure BlockEnd where
  leading : List Char
  trailing : List Char
  deriving Repr

/-- Read the lines of a block at the column `indent`. In a `folded` block the end of a line becomes a
blank, unless the line or the one before begins with a blank. -/
def readBlockLines (folded : Bool) (indent : Nat) :
    Nat → Cursor → Bool → List Char → BlockEnd → Option (List Char × BlockEnd × Cursor)
  | 0, _, _, _, _ => none
  | fuel + 1, c, blankBefore, text, ending =>
    if c.column != indent || c.rest.isEmpty then some (text, ending, c)
    else
      let blankHere := c.isAt isBlank
      let joined :=
        if folded && ending.leading.head? = some '\n' && !blankBefore && !blankHere then
          if ending.trailing.isEmpty then [' '] else []
        else ending.leading
      let line := c.takeWhile (!isBreak ·)
      let text := text ++ joined ++ ending.trailing ++ line
      let c := c.skipLine
      let leading := c.rest.take 1
      let c := if c.rest.isEmpty then c else c.nextLine
      match readBlockBreaks (some indent) c.fuel c 0 [] with
      | none => none
      | some (trailing, _, c) =>
        readBlockLines folded indent fuel c blankHere text ⟨leading, trailing⟩

/-- The place behind the header of a block and its line end; only a comment may stand there. -/
def endBlockHeader (c : Cursor) : Option Cursor :=
  let c := c.skipWhile isBlank
  let c := if c.sees '#' then c.skipLine else c
  if c.rest.isEmpty then some c else if c.isAt isBreak then some c.nextLine else none

/-- The text of a block with its end chomped. -/
def Chomping.apply (chomping : Chomping) (text : List Char) (ending : BlockEnd) : List Char :=
  match chomping with
  | .strip => text
  | .clip => text ++ ending.leading
  | .keep => text ++ ending.leading ++ ending.trailing

/-- A block scalar, at its mark, inside a node that is indented to column `parent`. -/
def blockScalar (folded : Bool) (parent : Int) (c : Cursor) : Option (List Char × Cursor) := do
  let (chomping, increment, c) ← blockHeader (c.advance 1)
  let c ← endBlockHeader c
  let fixed := increment.map fun n => (max parent 0).toNat + n
  let (breaks, widest, c) ← readBlockBreaks fixed c.fuel c 0 []
  let indent := fixed.getD (max (max widest (parent + 1).toNat) 1)
  let (text, ending, c) ← readBlockLines folded indent c.fuel c false [] ⟨[], breaks⟩
  return (chomping.apply text ending, c)

end PatchPanel.Yaml
