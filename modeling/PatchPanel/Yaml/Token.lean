import PatchPanel.Yaml.Scalar

/-!
The tokens of a YAML text. Indentation shows in tokens of its own: where a list or mapping begins by
a deeper column, and where it ends. That something was a key is known only at the colon behind it;
until then its place in the list of tokens is kept, and the token that marks a key is put in there.
-/
namespace PatchPanel.Yaml

/-- How a scalar is written: plainly, as a literal block, or in another way. -/
inductive Style where
  | plain
  | literal
  | other
  deriving DecidableEq, Repr

/-- The tokens of a YAML text. -/
inductive Token where
  | directive
  | documentStart
  | documentEnd
  | beginBlockList
  | beginBlockMapping
  | endBlock
  | beginFlowList
  | endFlowList
  | beginFlowMapping
  | endFlowMapping
  | blockItem
  | flowItem
  | key
  | value
  | alias (name : List Char)
  | anchor (name : List Char)
  | tag (name : List Char)
  | scalar (style : Style) (text : List Char)
  deriving DecidableEq, Repr

/-- Something that a colon may still make a key: where its tokens begin, and where it stands. A key
is `required` where nothing else can begin a line. -/
structure PendingKey where
  token : Nat
  index : Nat
  line : Nat
  column : Nat
  required : Bool
  deriving Repr

/-- The state of the scanner. `keys` has one entry for each open bracket and one for the text
outside of all brackets, the innermost first. -/
structure Scanner where
  cursor : Cursor
  indent : Int
  outer : List Int
  inner : Option PendingKey
  keys : List (Option PendingKey)
  keyAllowed : Bool
  tokens : List Token
  deriving Repr

namespace Scanner

def start (text : List Char) : Scanner := ⟨.start text, -1, [], none, [], true, []⟩

/-- The place is inside brackets. -/
def inFlow (s : Scanner) : Bool := !s.keys.isEmpty

def emit (s : Scanner) (t : Token) : Scanner := { s with tokens := s.tokens ++ [t] }

/-- The state with a token put in at a place. -/
def insert (s : Scanner) (place : Nat) (t : Token) : Scanner :=
  { s with tokens := s.tokens.take place ++ t :: s.tokens.drop place }

/-- The state at another place of the text. -/
def moveTo (s : Scanner) (c : Cursor) : Scanner := { s with cursor := c }

def advance (s : Scanner) (n : Nat) : Scanner := s.moveTo (s.cursor.advance n)

/-- The state where a key may begin, or may not. -/
def allowKey (s : Scanner) (allowed : Bool) : Scanner := { s with keyAllowed := allowed }

/-- Go to the next token: over blanks, comments and line ends. Tabs count as blanks where no key
can begin. -/
def toNextToken : Nat → Scanner → Scanner
  | 0, s => s
  | fuel + 1, s =>
    let tabs := s.inFlow || !s.keyAllowed
    let c := s.cursor.skipWhile fun char => char = ' ' || (tabs && char = '\t')
    let c := if c.sees '#' then c.skipLine else c
    if c.isAt isBreak then
      toNextToken fuel { s with cursor := c.nextLine, keyAllowed := s.keyAllowed || !s.inFlow }
    else s.moveTo c

/-- A pending key can no longer become one: it stands on an earlier line or too far back. -/
def isStale (c : Cursor) (k : PendingKey) : Bool := k.line < c.line || k.index + 1024 < c.index

/-- Give up a pending key that has become stale, unless it is required. -/
def dropStale (c : Cursor) : Option PendingKey → Option (Option PendingKey)
  | none => some none
  | some k => if isStale c k then (if k.required then none else some none) else some (some k)

/-- Give up all pending keys that have become stale. -/
def dropStaleKeys (s : Scanner) : Option Scanner := do
  let inner ← dropStale s.cursor s.inner
  let keys ← s.keys.mapM (dropStale s.cursor)
  return { s with inner := inner, keys := keys }

/-- Give up the pending key inside the innermost bracket, unless it is required. -/
def dropKey (s : Scanner) : Option Scanner :=
  match s.inner with
  | some k => if k.required then none else some { s with inner := none }
  | none => some s

/-- Keep what begins here as a pending key, if a key may begin here. -/
def keepKey (s : Scanner) : Option Scanner :=
  if s.keyAllowed then do
    let required := !s.inFlow && s.indent = s.cursor.column
    let s ← s.dropKey
    let c := s.cursor
    return { s with inner := some ⟨s.tokens.length, c.index, c.line, c.column, required⟩ }
  else some s

/-- The indentation of the blocks around a column, the one of the innermost first, and the number of
blocks that end in front of it. -/
def unwind (column indent : Int) : List Int → Int × List Int × Nat
  | [] => if column < indent then (-1, [], 1) else (indent, [], 0)
  | next :: rest =>
    if column < indent then
      let (indent, outer, ended) := unwind column next rest
      (indent, outer, ended + 1)
    else (indent, next :: rest, 0)

/-- End all blocks that are indented deeper than a column. -/
def endBlocks (column : Int) (s : Scanner) : Scanner :=
  if s.inFlow then s
  else
    let (indent, outer, ended) := unwind column s.indent s.outer
    { s with
      indent := indent
      outer := outer
      tokens := s.tokens ++ List.replicate ended .endBlock }

/-- Begin a block at a column, if it is indented deeper than the one around it; its first token is
put in at a place. -/
def beginBlock (column place : Nat) (t : Token) (s : Scanner) : Scanner :=
  if !s.inFlow && s.indent < column then
    { (s.insert place t) with indent := column, outer := s.indent :: s.outer }
  else s

def finish (s : Scanner) : Option Scanner := (s.endBlocks (-1)).dropKey

/-- A token that ends all blocks: a directive or a mark between documents. -/
def outside (s : Scanner) : Option Scanner := ((s.endBlocks (-1)).dropKey).map (·.allowKey false)

def openFlow (t : Token) (s : Scanner) : Option Scanner := do
  let s ← s.keepKey
  let s := { s with inner := none, keys := s.inner :: s.keys, keyAllowed := true }
  return (s.advance 1).emit t

def closeFlow (t : Token) (s : Scanner) : Option Scanner := do
  let s ← s.dropKey
  let s := match s.keys with
    | [] => { s with inner := none }
    | outer :: keys => { s with inner := outer, keys := keys }
  return ((s.allowKey false).advance 1).emit t

def flowItem (s : Scanner) : Option Scanner := do
  let s ← s.dropKey
  return ((s.allowKey true).advance 1).emit .flowItem

def blockItem (s : Scanner) : Option Scanner := do
  if !s.inFlow && !s.keyAllowed then none
  let s ← (s.beginBlock s.cursor.column s.tokens.length .beginBlockList).dropKey
  return ((s.allowKey true).advance 1).emit .blockItem

def explicitKey (s : Scanner) : Option Scanner := do
  if !s.inFlow && !s.keyAllowed then none
  let s ← (s.beginBlock s.cursor.column s.tokens.length .beginBlockMapping).dropKey
  return ((s.allowKey !s.inFlow).advance 1).emit .key

/-- A colon in front of a value, which makes a key of a pending one. -/
def value (s : Scanner) : Option Scanner :=
  match s.inner with
  | some k =>
    let s := (s.insert k.token .key).beginBlock k.column k.token .beginBlockMapping
    some (({ s with inner := none, keyAllowed := false }.advance 1).emit .value)
  | none => do
    if !s.inFlow && !s.keyAllowed then none
    let s := s.beginBlock s.cursor.column s.tokens.length .beginBlockMapping
    return ((s.allowKey !s.inFlow).advance 1).emit .value

/-- Characters of the names of anchors. -/
def isNameChar (c : Char) : Bool := c.isAlphanum || c = '-' || c = '_'

def name (make : List Char → Token) (s : Scanner) : Option Scanner := do
  let s ← s.keepKey
  let c := s.cursor.advance 1
  let text := c.takeWhile isNameChar
  let after := c.advance text.length
  let ends := after.gapAt 0 || after.isAt fun char => "?:,]\x7d%@`".toList.contains char
  if text.isEmpty || !ends then none
  return ((s.moveTo after).allowKey false).emit (make text)

/-- Characters of a tag. -/
def isTagChar (c : Char) : Bool :=
  c.isAlphanum || "-_;/?:@&=+$.%!~*'()".toList.contains c

/-- The tag of the text behind its mark: one that is written out in angle brackets, one of the YAML
types, or a local one. -/
def tagText? (text : List Char) : Option (List Char × Nat) :=
  match text with
  | '<' :: rest =>
    let uri := rest.takeWhile fun c => isTagChar c || c = ',' || c = '[' || c = ']'
    if uri.isEmpty || (rest.drop uri.length).head? != some '>' then none
    else some (uri, uri.length + 2)
  | '!' :: rest =>
    let suffix := rest.takeWhile isTagChar
    if suffix.isEmpty then none
    else some ("tag:yaml.org,2002:".toList ++ suffix, suffix.length + 1)
  | rest =>
    let suffix := rest.takeWhile isTagChar
    if suffix.contains '!' then none else some ('!' :: suffix, suffix.length)

def tag (s : Scanner) : Option Scanner := do
  let s ← s.keepKey
  let c := s.cursor.advance 1
  let (text, n) ← tagText? c.rest
  let after := c.advance n
  if !(after.gapAt 0 || (s.inFlow && after.sees ',')) then none
  return ((s.moveTo after).allowKey false).emit (.tag text)

def block (folded : Bool) (s : Scanner) : Option Scanner := do
  let s ← s.dropKey
  let (text, c) ← blockScalar folded s.indent s.cursor
  let style := if folded then .other else .literal
  return ((s.moveTo c).allowKey true).emit (.scalar style text)

def quoted (quote : Char) (s : Scanner) : Option Scanner := do
  let s ← s.keepKey
  let (text, c) ← quotedScalar quote s.cursor
  return ((s.moveTo c).allowKey false).emit (.scalar .other text)

/-- A plain scalar. A key may begin on the line after it. -/
def plain (s : Scanner) : Option Scanner := do
  let s ← s.keepKey
  let (text, broken, c) ← plainScalar s.inFlow (s.indent + 1).toNat s.cursor
  return ((s.moveTo c).allowKey broken).emit (.scalar .plain text)

/-- Characters that begin no plain scalar. -/
def isIndicator (c : Char) : Bool := "-?:,[]\x7b\x7d#&*!|>'\"%@`".toList.contains c

/-- A plain scalar may begin here: not with an indicator, unless it is a dash, or outside of
brackets a question mark or colon, that has no gap behind it. -/
def beginsPlain (s : Scanner) (char : Char) : Bool :=
  let c := s.cursor
  !(isBlank char || isBreak char || isIndicator char) ||
    (char = '-' && !(c.peek 1).any isBlank) ||
    (!s.inFlow && (char = '?' || char = ':') && !c.gapAt 1)

/-- A directive, which is passed over to the end of its line. -/
def directive (s : Scanner) : Option Scanner := do
  let s ← s.outside
  return (s.moveTo s.cursor.skipLine).emit .directive

def documentMark (t : Token) (s : Scanner) : Option Scanner := do
  let s ← s.outside
  return (s.advance 3).emit t

/-- Read the token at the place of the scanner, which begins with `char`. -/
def token (s : Scanner) (char : Char) : Option Scanner :=
  let c := s.cursor
  if c.column = 0 && char = '%' then s.directive
  else if c.atDocumentMark '-' then s.documentMark .documentStart
  else if c.atDocumentMark '.' then s.documentMark .documentEnd
  else if char = '[' then s.openFlow .beginFlowList
  else if char = '{' then s.openFlow .beginFlowMapping
  else if char = ']' then s.closeFlow .endFlowList
  else if char = '}' then s.closeFlow .endFlowMapping
  else if char = ',' then s.flowItem
  else if char = '-' && c.gapAt 1 then s.blockItem
  else if char = '?' && (s.inFlow || c.gapAt 1) then s.explicitKey
  else if char = ':' && (s.inFlow || c.gapAt 1) then s.value
  else if char = '*' then s.name .alias
  else if char = '&' then s.name .anchor
  else if char = '!' then s.tag
  else if char = '|' && !s.inFlow then s.block false
  else if char = '>' && !s.inFlow then s.block true
  else if char = '\'' || char = '"' then s.quoted char
  else if s.beginsPlain char then s.plain
  else none

def run : Nat → Scanner → Option (List Token)
  | 0, _ => none
  | fuel + 1, s => do
    let s := toNextToken s.cursor.fuel s
    let s ← s.dropStaleKeys
    let s := s.endBlocks s.cursor.column
    match s.cursor.rest.head? with
    | none => return (← s.finish).tokens
    | some char => run fuel (← s.token char)

end Scanner

/-- A text without a byte order mark at its beginning. -/
def dropByteOrderMark : List Char → List Char
  | '\ufeff' :: text => text
  | text => text

/-- The tokens of a YAML text, if it can be divided into tokens. -/
def tokens (text : List Char) : Option (List Token) :=
  let text := dropByteOrderMark text
  if text.all isReadable then
    let s := Scanner.start (normalizeBreaks text)
    s.run s.cursor.fuel
  else none

end PatchPanel.Yaml
