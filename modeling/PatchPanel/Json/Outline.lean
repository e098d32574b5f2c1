import PatchPanel.Json.Token

/-!
The outline of a text: the data tree as far as the text is well formed, with a mark at the place
where it breaks off. A reader that walks an outline from left to right meets faults of the text
and faults of the data in the order in which they stand.
-/
namespace PatchPanel.Json

/-- Why no value can be read at a place where one is due: the text ends, something else stands
there, or the value itself breaks off. -/
inductive Flaw where
  | absent
  | stray
  | word (b : Break)
  | number (b : Break)
  | string (reading skipping : Break)
  deriving DecidableEq, Repr

namespace Flaw

/-- The fault that a reader of the value reports. -/
def reading : Flaw → Break
  | .absent => .truncated
  | .stray => .malformed
  | .word b => b
  | .number b => b
  | .string reading _ => reading

/-- The fault that a reader reports who passes over the value, and who does not wait for the rest
of a number. -/
def skipping : Flaw → Break
  | .absent => .truncated
  | .stray => .malformed
  | .word b => b
  | .number _ => .malformed
  | .string _ skipping => skipping

/-- The fault that a reader of a name reports, who starts on nothing but a string. -/
def naming : Flaw → Break
  | .absent => .truncated
  | .string reading _ => reading
  | .stray | .word _ | .number _ => .malformed

end Flaw

mutual

/-- A value as far as it is well formed. A `garbled` value can be passed over but not read. -/
inductive Outline where
  | null
  | bool (b : Bool)
  | number (n : Number)
  | string (s : String)
  | garbled
  | array (items : Items)
  | object (members : Members)
  | flawed (flaw : Flaw)

/-- The items of a list up to its closing bracket or to the place where the text breaks off. -/
inductive Items where
  | close
  | cut (b : Break)
  | item (first : Outline) (rest : Items)

/-- The members of an object up to its closing brace or to the place where the text breaks off:
between members or inside a key (`cut`), or at something else in the place of a key (`noKey`). A
garbled key is none. -/
inductive Members where
  | close
  | cut (reading skipping : Break)
  | noKey (found : Outline)
  | member (key : Option String) (value : Outline) (rest : Members)

end

/-- The items of a reversed list, and then `rest`. -/
def Items.prepend (reversed : List Outline) (rest : Items) : Items :=
  reversed.foldl (fun rest item => .item item rest) rest

/-- The members of a reversed list, and then `rest`. -/
def Members.prepend (reversed : List (Option String × Outline)) (rest : Members) : Members :=
  reversed.foldl (fun rest m => .member m.1 m.2 rest) rest

/-- A list or object in which a value is due: what stands before the value, the last first, and the
key of the value in an object. -/
inductive Frame where
  | array (reversed : List Outline)
  | object (reversed : List (Option String × Outline)) (key : Option String)

/-- The frame as a value that breaks off behind its last item or member `value`. -/
def Frame.seal (value : Outline) : Frame → Outline
  | .array reversed => .array (.prepend (value :: reversed) (.cut .malformed))
  | .object reversed key =>
    .object (.prepend ((key, value) :: reversed) (.cut .malformed .malformed))

/-- The value that a text breaks off behind `value` with, the innermost frame first. -/
def sealAll (value : Outline) (frames : List Frame) : Outline :=
  frames.foldl Frame.seal value

/-- A whole text: the outline of its value, and whether something stands behind the value. -/
structure TextOutline where
  root : Outline
  trailing : Bool

/-- A text that breaks off behind `value` in the given frames. -/
def breakOff (value : Outline) (frames : List Frame) : TextOutline := ⟨sealAll value frames, false⟩

/-- What is due next, inside the given frames: a value; the first item of a list; the comma or
bracket after an item; the first key of an object; a key after a comma; the colon after a key; the
comma or brace after a member; nothing more. -/
inductive Due where
  | value (frames : List Frame)
  | firstItem (frames : List Frame)
  | afterItem (reversed : List Outline) (frames : List Frame)
  | firstKey (frames : List Frame)
  | key (reversed : List (Option String × Outline)) (frames : List Frame)
  | colon (reversed : List (Option String × Outline)) (name : Option String) (frames : List Frame)
  | afterMember (reversed : List (Option String × Outline)) (frames : List Frame)
  | nothing (root : Outline)

/-- What is due after a complete value. -/
def complete (value : Outline) : List Frame → Due
  | [] => .nothing value
  | .array reversed :: frames => .afterItem (value :: reversed) frames
  | .object reversed key :: frames => .afterMember ((key, value) :: reversed) frames

def Lexeme.outline {α : Type} (read : α → Outline) : Lexeme α → Outline
  | .readable a => read a
  | .garbled => .garbled

/-- The key that a lexeme stands for. -/
def Lexeme.key : Lexeme String → Option String
  | .readable s => some s
  | .garbled => none

/-- A token in the place of a value: the value begins a list or an object, is complete, or is
flawed, which ends the text. -/
def beginValue (frames : List Frame) : Token → Except TextOutline Due
  | .openArray => .ok (.firstItem frames)
  | .openObject => .ok (.firstKey frames)
  | .null => .ok (complete .null frames)
  | .bool b => .ok (complete (.bool b) frames)
  | .number n => .ok (complete (n.outline .number) frames)
  | .string s => .ok (complete (s.outline .string) frames)
  | .brokenWord b => .error (breakOff (.flawed (.word b)) frames)
  | .brokenNumber b => .error (breakOff (.flawed (.number b)) frames)
  | .brokenString reading skipping =>
    .error (breakOff (.flawed (.string reading skipping)) frames)
  | .closeArray | .closeObject | .comma | .colon | .stray =>
    .error (breakOff (.flawed .stray) frames)

/-- The outline of a token that stands where a key is due and is no string. -/
def Token.head : Token → Outline
  | .openArray => .array (.cut .malformed)
  | .openObject => .object (.cut .malformed .malformed)
  | .null => .null
  | .bool b => .bool b
  | .number n => n.outline .number
  | .brokenWord b => .flawed (.word b)
  | .brokenNumber b => .flawed (.number b)
  | .string _ | .brokenString _ _ | .closeArray | .closeObject | .comma | .colon | .stray =>
    .flawed .stray

def beginKey (reversed : List (Option String × Outline)) (frames : List Frame) :
    Token → Except TextOutline Due
  | .string s => .ok (.colon reversed s.key frames)
  | .brokenString reading skipping =>
    .error (breakOff (.object (.prepend reversed (.cut reading skipping))) frames)
  | token => .error (breakOff (.object (.prepend reversed (.noKey token.head))) frames)

/-- What is due after a token, or the outline of a text that breaks off at it. -/
def Due.step : Due → Token → Except TextOutline Due
  | .value frames, token => beginValue frames token
  | .firstItem frames, token =>
    match token with
    | .closeArray => .ok (complete (.array .close) frames)
    | token => beginValue (.array [] :: frames) token
  | .afterItem reversed frames, token =>
    match token with
    | .comma => .ok (.value (.array reversed :: frames))
    | .closeArray => .ok (complete (.array (.prepend reversed .close)) frames)
    | _ => .error (breakOff (.array (.prepend reversed (.cut .malformed))) frames)
  | .firstKey frames, token =>
    match token with
    | .closeObject => .ok (complete (.object .close) frames)
    | token => beginKey [] frames token
  | .key reversed frames, token => beginKey reversed frames token
  | .colon reversed name frames, token =>
    match token with
    | .colon => .ok (.value (.object reversed name :: frames))
    | _ => .error (breakOff (.flawed .stray) (.object reversed name :: frames))
  | .afterMember reversed frames, token =>
    match token with
    | .comma => .ok (.key reversed frames)
    | .closeObject => .ok (complete (.object (.prepend reversed .close)) frames)
    | _ => .error (breakOff (.object (.prepend reversed (.cut .malformed .malformed))) frames)
  | .nothing root, _ => .error ⟨root, true⟩

/-- The outline of a text that ends where something is due. -/
def Due.finish : Due → TextOutline
  | .value frames => breakOff (.flawed .absent) frames
  | .firstItem frames => breakOff (.array (.cut .truncated)) frames
  | .afterItem reversed frames =>
    breakOff (.array (.prepend reversed (.cut .truncated))) frames
  | .firstKey frames => breakOff (.object (.cut .truncated .truncated)) frames
  | .key reversed frames =>
    breakOff (.object (.prepend reversed (.cut .truncated .truncated))) frames
  | .colon reversed name frames => breakOff (.flawed .absent) (.object reversed name :: frames)
  | .afterMember reversed frames =>
    breakOff (.object (.prepend reversed (.cut .truncated .truncated))) frames
  | .nothing root => ⟨root, false⟩

/-- The outline that a list of tokens goes on to. -/
def outlineFrom (due : Due) : List Token → TextOutline
  | [] => due.finish
  | token :: rest =>
    match due.step token with
    | .ok next => outlineFrom next rest
    | .error outline => outline

def outline (text : List Char) : TextOutline := outlineFrom (.value []) (tokens text)

mutual

/-- The outline of a data tree, which has no flaw. -/
def toOutline : Json → Outline
  | .null => .null
  | .bool b => .bool b
  | .number n => .number n
  | .string s => .string s
  | .array items => .array (toItems items)
  | .object members => .object (toMembers members)

def toItems : List Json → Items
  | [] => .close
  | item :: items => .item item.toOutline (toItems items)

def toMembers : List (String × Json) → Members
  | [] => .close
  | (key, value) :: members => .member (some key) value.toOutline (toMembers members)

end

end PatchPanel.Json
