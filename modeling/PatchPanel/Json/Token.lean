import PatchPanel.Json.Basic
import PatchPanel.Text.Numeral

/-!
The tokens of a JSON text. The scanner is a machine that takes one character a step; it stops at
the first place where the text is no longer well formed and leaves a token that says what was
being read there.
-/
namespace PatchPanel.Json

/-- In which way a text is no JSON text: a character stands where it may not, or the text ends
too early. -/
inductive Break where
  | malformed
  | truncated
  deriving DecidableEq, Repr

/-- A string or number that was read to its end. A `garbled` one has the form of its kind, so that
it can be passed over, but stands for no value: a string with half of a surrogate pair, or a number
beyond the floating-point range. -/
inductive Lexeme (α : Type) where
  | readable (value : α)
  | garbled
  deriving DecidableEq, Repr

/-- The pieces of a JSON text. The last three end the text: inside a word, a number or a string, or
at a character that starts no token. A string that breaks off may do so in two ways, one for a
reader of its value and one for a reader that passes over it. -/
inductive Token where
  | openArray
  | closeArray
  | openObject
  | closeObject
  | comma
  | colon
  | null
  | bool (b : Bool)
  | number (n : Lexeme Number)
  | string (s : Lexeme String)
  | brokenWord (b : Break)
  | brokenNumber (b : Break)
  | brokenString (reading skipping : Break)
  | stray
  deriving DecidableEq, Repr

/-- Where the scanner stands in a number. -/
inductive NumberPart where
  | sign
  | zero
  | whole
  | point
  | fraction
  | mark
  | markSign
  | exponent
  deriving DecidableEq, Repr

/-- The part of the number after one more character, if the number goes on with it. A whole part
has no leading zeros. -/
def NumberPart.next? (part : NumberPart) (c : Char) : Option NumberPart :=
  match part with
  | .sign => if c = '0' then some .zero else if Numeral.isDigit c then some .whole else none
  | .zero =>
    if c = '.' then some .point else if c = 'e' ∨ c = 'E' then some .mark else none
  | .whole =>
    if Numeral.isDigit c then some .whole
    else if c = '.' then some .point
    else if c = 'e' ∨ c = 'E' then some .mark
    else none
  | .point => if Numeral.isDigit c then some .fraction else none
  | .fraction =>
    if Numeral.isDigit c then some .fraction
    else if c = 'e' ∨ c = 'E' then some .mark
    else none
  | .mark =>
    if Numeral.isDigit c then some .exponent
    else if c = '+' ∨ c = '-' then some .markSign
    else none
  | .markSign => if Numeral.isDigit c then some .exponent else none
  | .exponent => if Numeral.isDigit c then some .exponent else none

/-- A number may end after this part. -/
def NumberPart.isComplete : NumberPart → Bool
  | .zero | .whole | .fraction | .exponent => true
  | .sign | .point | .mark | .markSign => false

/-- Significand and power of ten after the digits of the whole part: digits are taken up as long as
the significand fits 64 bits, and each further digit counts as a power of ten. -/
def takeWhole : Nat → Int → List Char → Nat × Int
  | n, dropped, [] => (n, dropped)
  | n, dropped, c :: digits =>
    let longer := n * 10 + Numeral.digitValue c
    if dropped = 0 ∧ longer < UInt64.size then takeWhole longer 0 digits
    else takeWhole n (dropped + 1) digits

/-- Significand and power of ten after the digits behind the point: digits are taken up as long as
the significand fits 64 bits, and the others are dropped. -/
def takeFraction : Nat → Int → List Char → Nat × Int
  | n, power, [] => (n, power)
  | n, power, c :: digits =>
    let longer := n * 10 + Numeral.digitValue c
    if longer < UInt64.size then takeFraction longer (power - 1) digits else (n, power)

/-- The value of the digits of an exponent with an optional sign. -/
def signedDigits : List Char → Int
  | '-' :: digits => -(Numeral.ofDigits 0 digits : Int)
  | '+' :: digits => Numeral.ofDigits 0 digits
  | digits => Numeral.ofDigits 0 digits

/-- The floating-point number of a sign and the characters after it. -/
def binaryOf (negative : Bool) (text : List Char) : Lexeme Number :=
  let whole := takeWhole 0 0 (text.takeWhile Numeral.isDigit)
  let afterWhole := text.dropWhile Numeral.isDigit
  let (scaled, afterFraction) :=
    match afterWhole with
    | '.' :: rest =>
      (takeFraction whole.1 whole.2 (rest.takeWhile Numeral.isDigit),
        rest.dropWhile Numeral.isDigit)
    | rest => (whole, rest)
  let exponent :=
    match afterFraction with
    | _ :: rest => signedDigits rest
    | [] => 0
  match Binary64.ofDecimal? negative (UInt64.ofNat scaled.1) (scaled.2 + exponent) with
  | some x => .readable (.binary x)
  | none => .garbled

/-- The number that a complete numeral stands for: an integer where the text has neither fraction
nor exponent and the value is in range, otherwise a floating-point number. Minus zero is one of
the latter. -/
def numberOf (text : List Char) : Lexeme Number :=
  let (negative, body) :=
    match text with
    | '-' :: body => (true, body)
    | body => (false, body)
  let n := Numeral.ofDigits 0 body
  if !body.all Numeral.isDigit then binaryOf negative body
  else if !negative && n < UInt64.size then .readable (.natural (UInt64.ofNat n))
  else if h : negative = true ∧ 1 ≤ n ∧ n ≤ 0x8000000000000000 then
    .readable (.negSucc ⟨n - 1, by omega⟩)
  else binaryOf negative body

/-- Where the scanner stands in a string. A `half` is the first half of a surrogate pair whose
second half has to follow as an escape of its own. -/
inductive StringPart where
  | plain
  | escape
  | afterHalf (half : Nat)
  | escapeAfterHalf (half : Nat)
  | hex (half : Option Nat) (digits : List Char)
  deriving DecidableEq, Repr

/-- A string in reading: the characters so far, last first, and whether it is garbled. -/
structure OpenString where
  part : StringPart
  reversed : List Char
  garbled : Bool
  deriving DecidableEq, Repr

namespace OpenString

/-- The state after an opening quotation mark. -/
def start : OpenString := ⟨.plain, [], false⟩

def push (o : OpenString) (c : Char) : OpenString := ⟨.plain, c :: o.reversed, o.garbled⟩

/-- The string with half of a surrogate pair in it. -/
def spoil (o : OpenString) : OpenString := ⟨.plain, o.reversed, true⟩

/-- The string from its collected characters. -/
def lexeme (o : OpenString) : Lexeme String :=
  if o.garbled then .garbled else .readable (String.ofList o.reversed.reverse)

/-- The token of a string that breaks off. The value of a garbled string was lost earlier. -/
def broken (o : OpenString) (b : Break) : Token :=
  .brokenString (if o.garbled then .malformed else b) b

end OpenString

/-- The character of an escape by one letter. -/
def unescape? (c : Char) : Option Char :=
  if c = '"' then some '"'
  else if c = '\\' then some '\\'
  else if c = '/' then some '/'
  else if c = 'b' then some '\x08'
  else if c = 'f' then some '\x0c'
  else if c = 'n' then some '\n'
  else if c = 'r' then some '\r'
  else if c = 't' then some '\t'
  else none

/-- First halves of surrogate pairs. -/
def isHighHalf (n : Nat) : Bool := 0xD800 ≤ n ∧ n ≤ 0xDBFF

/-- Second halves of surrogate pairs. -/
def isLowHalf (n : Nat) : Bool := 0xDC00 ≤ n ∧ n ≤ 0xDFFF

def joinHalves (high low : Nat) : Char :=
  Char.ofNat (0x10000 + (high - 0xD800) * 0x400 + (low - 0xDC00))

/-- The string after a complete escape by number, with `half` before it. -/
def OpenString.pushUnit (o : OpenString) (half : Option Nat) (unit : Nat) : OpenString :=
  match half with
  | some high => if isLowHalf unit then o.push (joinHalves high unit) else o.spoil
  | none =>
    if isHighHalf unit then { o with part := .afterHalf unit }
    else if isLowHalf unit then o.spoil
    else o.push (Char.ofNat unit)

/-- What the scanner is reading. A `word` has letters still to come. -/
inductive ScanState where
  | between
  | word (expected : List Char) (token : Token)
  | number (part : NumberPart) (reversed : List Char)
  | string (o : OpenString)
  deriving DecidableEq, Repr

/-- The outcome of a step: the tokens that it completes, and the next state unless the text breaks
here. -/
structure Step where
  tokens : List Token
  next : Option ScanState
  deriving DecidableEq, Repr

def isBlank (c : Char) : Bool := c = ' ' ∨ c = '\t' ∨ c = '\n' ∨ c = '\r'

def beginToken (c : Char) : Step :=
  if isBlank c then ⟨[], some .between⟩
  else if c = '[' then ⟨[.openArray], some .between⟩
  else if c = ']' then ⟨[.closeArray], some .between⟩
  else if c = '\x7b' then ⟨[.openObject], some .between⟩
  else if c = '\x7d' then ⟨[.closeObject], some .between⟩
  else if c = ',' then ⟨[.comma], some .between⟩
  else if c = ':' then ⟨[.colon], some .between⟩
  else if c = '"' then ⟨[], some (.string .start)⟩
  else if c = 'n' then ⟨[], some (.word ['u', 'l', 'l'] .null)⟩
  else if c = 't' then ⟨[], some (.word ['r', 'u', 'e'] (.bool true))⟩
  else if c = 'f' then ⟨[], some (.word ['a', 'l', 's', 'e'] (.bool false))⟩
  else if c = '-' then ⟨[], some (.number .sign [c])⟩
  else if c = '0' then ⟨[], some (.number .zero [c])⟩
  else if Numeral.isDigit c then ⟨[], some (.number .whole [c])⟩
  else ⟨[.stray], none⟩

def stepWord (expected : List Char) (token : Token) (c : Char) : Step :=
  match expected with
  | [] => ⟨[token], some .between⟩
  | [e] => if c = e then ⟨[token], some .between⟩ else ⟨[.brokenWord .malformed], none⟩
  | e :: rest =>
    if c = e then ⟨[], some (.word rest token)⟩ else ⟨[.brokenWord .malformed], none⟩

/-- A step inside a number; a complete number ends before the first character that it cannot go on
with. A digit after a leading zero breaks it. -/
def stepNumber (part : NumberPart) (reversed : List Char) (c : Char) : Step :=
  match part.next? c with
  | some part => ⟨[], some (.number part (c :: reversed))⟩
  | none =>
    if !part.isComplete || (part = .zero && Numeral.isDigit c) then
      ⟨[.brokenNumber .malformed], none⟩
    else
      let after := beginToken c
      ⟨.number (numberOf reversed.reverse) :: after.tokens, after.next⟩

def stepPlain (o : OpenString) (c : Char) : Step :=
  if c = '"' then ⟨[.string o.lexeme], some .between⟩
  else if c = '\\' then ⟨[], some (.string { o with part := .escape })⟩
  else if c.toNat < 0x20 then ⟨[o.broken .malformed], none⟩
  else ⟨[], some (.string (o.push c))⟩

def stepEscape (o : OpenString) (c : Char) : Step :=
  if c = 'u' then ⟨[], some (.string { o with part := .hex none [] })⟩
  else
    match unescape? c with
    | some d => ⟨[], some (.string (o.push d))⟩
    | none => ⟨[o.broken .malformed], none⟩

/-- A step inside a string. An escape by number takes the next four bytes of the text, whatever
they are, and is malformed if they are no hexadecimal digits. -/
def stepString (o : OpenString) (c : Char) : Step :=
  match o.part with
  | .plain => stepPlain o c
  | .escape => stepEscape o c
  | .afterHalf half =>
    if c = '\\' then ⟨[], some (.string { o with part := .escapeAfterHalf half })⟩
    else stepPlain o.spoil c
  | .escapeAfterHalf half =>
    if c = 'u' then ⟨[], some (.string { o with part := .hex (some half) [] })⟩
    else stepEscape o.spoil c
  | .hex half digits =>
    let digits := digits ++ [c]
    if (String.ofList digits).utf8ByteSize < 4 then
      ⟨[], some (.string { o with part := .hex half digits })⟩
    else
      match Numeral.ofHexDigits? digits with
      | some unit => ⟨[], some (.string (o.pushUnit half unit))⟩
      | none => ⟨[o.broken .malformed], none⟩

def ScanState.step : ScanState → Char → Step
  | .between, c => beginToken c
  | .word expected token, c => stepWord expected token c
  | .number part reversed, c => stepNumber part reversed c
  | .string o, c => stepString o c

/-- The token that the end of the text completes or breaks off. -/
def ScanState.finish : ScanState → List Token
  | .between => []
  | .word _ _ => [.brokenWord .truncated]
  | .number part reversed =>
    if part.isComplete then [.number (numberOf reversed.reverse)] else [.brokenNumber .truncated]
  | .string o => [o.broken .truncated]

/-- The tokens of a text from a state of the scanner. -/
def scan (state : ScanState) : List Char → List Token
  | [] => state.finish
  | c :: text =>
    match state.step c with
    | ⟨[], some next⟩ => scan next text
    | ⟨tokens, some next⟩ => tokens ++ scan next text
    | ⟨tokens, none⟩ => tokens

def tokens (text : List Char) : List Token := scan .between text

end PatchPanel.Json
