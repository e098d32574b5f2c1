import PatchPanel.Json.Text
import PatchPanel.Proofs.Json.Grammar
import PatchPanel.Proofs.Text.Numerals

/-!
Texts that trees are written as. A text spells a list of tokens if it has the written forms of the tokens in
their order with any blanks between them (`Spells`), and these forms are among those that the tokens may have
(`Spells.denotes`). The compact and the indented text of a tree spell one and the same list.
-/
namespace PatchPanel

namespace Json

/-! ### Integers -/

/-- The number is an integer. -/
def IsInteger : Number → Prop
  | .natural _ | .negSucc _ => True
  | .binary _ => False

private theorem all_isDigit_toDigits (n : Nat) : (Nat.toDigits 10 n).all Numeral.isDigit = true :=
  List.all_eq_true.mpr fun _ member => Numeral.isDigit_of_mem_toDigits member

theorem numberOf_natural (n : UInt64) : numberOf (Nat.toDigits 10 n.toNat) = .readable (.natural n) :=
  numberOf_eq_natural_iff.mpr
    ⟨fun _ member => Numeral.isDigit_of_mem_toDigits member, Numeral.ofDigits_toDigits n.toNat⟩

theorem numberOf_negSucc (n : Fin 0x8000000000000000) :
    numberOf ('-' :: Nat.toDigits 10 (n.val + 1)) = .readable (.negSucc n) := by
  have value := Numeral.ofDigits_toDigits (n.val + 1)
  have inRange : 1 ≤ Numeral.ofDigits 0 (Nat.toDigits 10 (n.val + 1)) ∧
      Numeral.ofDigits 0 (Nat.toDigits 10 (n.val + 1)) ≤ 0x8000000000000000 := by
    rw [value]
    omega
  rw [numberOf, if_neg (by simp [all_isDigit_toDigits]), if_neg (by simp), dif_pos ⟨rfl, inRange⟩]
  simp only [value, Nat.add_sub_cancel]

/-- The digits of a number are a whole part. -/
theorem isUnsigned_toDigits (n : Nat) : IsUnsigned (Nat.toDigits 10 n) := by
  refine ⟨Nat.toDigits 10 n, [], [], ?_, .inl rfl, .inl rfl, by simp⟩
  rcases Nat.eq_zero_or_pos n with rfl | positive
  · exact .inl rfl
  · obtain ⟨d, ds, digits, nonzero⟩ := Numeral.toDigits_head positive
    refine .inr ⟨⟨by simp [digits], fun c member => Numeral.isDigit_of_mem_toDigits member⟩, ?_⟩
    rw [digits, List.head?_cons]
    exact fun zero => nonzero (Option.some.inj zero)

/-- The text of an integer is a number, and the number is the integer. -/
theorem isNumeral_text {n : Number} (integer : IsInteger n) : IsNumeral n.text ∧ numberOf n.text = .readable n := by
  cases n with
  | natural n => exact ⟨.inl (isUnsigned_toDigits _), numberOf_natural n⟩
  | negSucc n => exact ⟨.inr ⟨_, isUnsigned_toDigits _, rfl⟩, numberOf_negSucc n⟩
  | binary x => cases integer

/-! ### Strings -/

private theorem isUnit_control : ∀ n : Fin 32,
    Numeral.ofHexDigits? ['0', '0', hexDigit (n.val / 16), hexDigit n.val] = some n.val := by
  decide

/-- What is written for a character inside quotation marks is one of its forms. -/
theorem charForm_escape (c : Char) : CharForm c (escape c) := by
  -- Seven characters have an escape by a letter of their own.
  unfold escape
  split
  · next same => exact .letter (by simp [escapeLetters, same])
  split
  · next same => exact .letter (by simp [escapeLetters, same])
  split
  · next same => exact .letter (by simp [escapeLetters, same])
  split
  · next same => exact .letter (by simp [escapeLetters, same])
  split
  · next same => exact .letter (by simp [escapeLetters, same])
  split
  · next same => exact .letter (by simp [escapeLetters, same])
  split
  · next same => exact .letter (by simp [escapeLetters, same])
  split
  · next control => exact .unit ⟨rfl, isUnit_control ⟨c.toNat, control⟩⟩
  · next notQuote notBackslash _ _ _ _ _ plain => exact .plain notQuote notBackslash (Nat.not_lt.mp plain)

theorem charForms_escape (cs : List Char) : CharForms cs (cs.flatMap escape) := by
  induction cs with
  | nil => exact .nil
  | cons c cs ih => exact .cons (charForm_escape c) ih

/-! ### Texts that spell tokens -/

/-- The written form of a token other than a number. -/
inductive Written : Token → List Char → Prop where
  | openArray : Written .openArray ['[']
  | closeArray : Written .closeArray [']']
  | openObject : Written .openObject ['\x7b']
  | closeObject : Written .closeObject ['\x7d']
  | comma : Written .comma [',']
  | colon : Written .colon [':']
  | null : Written .null ['n', 'u', 'l', 'l']
  | bool (b : Bool) : Written (.bool b) (flagText b)
  | string (s : String) : Written (.string (.readable s)) (quoted s)

/-- The text has the written forms of the tokens in their order, with any blanks between them. -/
inductive Spells : List Token → List Char → Prop where
  | nil : Spells [] []
  | blank {ts : List Token} {c : Char} {text : List Char} :
    isBlank c = true → Spells ts text → Spells ts (c :: text)
  | token {t : Token} {written : List Char} {ts : List Token} {text : List Char} :
    Written t written → Spells ts text → Spells (t :: ts) (written ++ text)
  | number {n : Number} {ts : List Token} {text : List Char} :
    IsInteger n → EndsNumber text → Spells ts text → Spells (.number (.readable n) :: ts) (n.text ++ text)

theorem Written.tokenForm {t : Token} {written : List Char} (form : Written t written) : TokenForm t written := by
  cases form with
  | bool b => cases b <;> constructor
  | string s =>
    rw [← String.ofList_toList (s := s)]
    exact .string (String.toList_ofList ▸ charForms_escape s.toList)
  | _ => constructor

/-- A text denotes the tokens that it spells. -/
theorem Spells.denotes {ts : List Token} {text : List Char} (spelled : Spells ts text) : Denotes ts text := by
  induction spelled with
  | nil => exact .nil
  | blank isBlank _ ih => exact .blank isBlank ih
  | token form _ ih => exact .token form.tokenForm ih
  | number integer ends _ ih =>
    obtain ⟨numeral, value⟩ := isNumeral_text integer
    exact .number numeral value ends ih

/-! ### The tokens of a tree -/

mutual

/-- The tokens of a tree. -/
def tokensOf : Json → List Token
  | .null => [.null]
  | .bool b => [.bool b]
  | .number n => [.number (.readable n)]
  | .string s => [.string (.readable s)]
  | .array [] => [.openArray, .closeArray]
  | .array (item :: items) => .openArray :: tokensOf item ++ tokensOfItems items
  | .object [] => [.openObject, .closeObject]
  | .object ((key, value) :: members) =>
    .openObject :: .string (.readable key) :: .colon :: tokensOf value ++ tokensOfMembers members

/-- The tokens of the items after the first, and the closing bracket. -/
def tokensOfItems : List Json → List Token
  | [] => [.closeArray]
  | item :: items => .comma :: tokensOf item ++ tokensOfItems items

/-- The tokens of the members after the first, and the closing brace. -/
def tokensOfMembers : List (String × Json) → List Token
  | [] => [.closeObject]
  | (key, value) :: members =>
    .comma :: .string (.readable key) :: .colon :: tokensOf value ++ tokensOfMembers members

end

mutual

/-- All numbers of the tree are integers. -/
def HasIntegers : Json → Prop
  | .number n => IsInteger n
  | .array items => ItemsHaveIntegers items
  | .object members => MembersHaveIntegers members
  | .null | .bool _ | .string _ => True

/-- All numbers of the items are integers. -/
def ItemsHaveIntegers : List Json → Prop
  | [] => True
  | item :: items => HasIntegers item ∧ ItemsHaveIntegers items

/-- All numbers of the members are integers. -/
def MembersHaveIntegers : List (String × Json) → Prop
  | [] => True
  | (_, value) :: members => HasIntegers value ∧ MembersHaveIntegers members

end

mutual

theorem Spells.compact : ∀ {j : Json} {ts : List Token} {rest : List Char}, HasIntegers j → EndsNumber rest →
    Spells ts rest → Spells (tokensOf j ++ ts) (j.compact ++ rest)
  | .null, _, _, _, _, spelled => .token .null spelled
  | .bool b, _, _, _, _, spelled => .token (.bool b) spelled
  | .number _, _, _, integer, ends, spelled => .number integer ends spelled
  | .string s, _, _, _, _, spelled => .token (.string s) spelled
  | .array [], _, _, _, _, spelled => by
    simpa [Json.compact, tokensOf] using Spells.token .openArray (.token .closeArray spelled)
  | .array (item :: items), ts, rest, ⟨first, others⟩, _, spelled => by
    obtain ⟨ends, tail⟩ := Spells.compactItems others spelled
    have head := Spells.compact first ends tail
    simpa [Json.compact, tokensOf] using Spells.token .openArray head
  | .object [], _, _, _, _, spelled => by
    simpa [Json.compact, tokensOf] using Spells.token .openObject (.token .closeObject spelled)
  | .object ((key, value) :: members), ts, rest, ⟨first, others⟩, _, spelled => by
    obtain ⟨ends, tail⟩ := Spells.compactMembers others spelled
    have head := Spells.compact first ends tail
    simpa [Json.compact, tokensOf] using Spells.token .openObject (.token (.string key) (.token .colon head))

theorem Spells.compactItems : ∀ {items : List Json} {ts : List Token} {rest : List Char}, ItemsHaveIntegers items →
    Spells ts rest → EndsNumber (Json.compactItems items ++ rest) ∧
      Spells (tokensOfItems items ++ ts) (Json.compactItems items ++ rest)
  | [], _, _, _, spelled => ⟨⟨rfl, by decide, by decide, by decide⟩, .token .closeArray spelled⟩
  | item :: items, ts, rest, ⟨first, others⟩, spelled => by
    obtain ⟨ends, tail⟩ := Spells.compactItems others spelled
    have head := Spells.compact first ends tail
    refine ⟨⟨rfl, by decide, by decide, by decide⟩, ?_⟩
    simpa [Json.compactItems, tokensOfItems] using Spells.token .comma head

theorem Spells.compactMembers : ∀ {members : List (String × Json)} {ts : List Token} {rest : List Char},
    MembersHaveIntegers members → Spells ts rest → EndsNumber (Json.compactMembers members ++ rest) ∧
      Spells (tokensOfMembers members ++ ts) (Json.compactMembers members ++ rest)
  | [], _, _, _, spelled => ⟨⟨rfl, by decide, by decide, by decide⟩, .token .closeObject spelled⟩
  | (key, value) :: members, ts, rest, ⟨first, others⟩, spelled => by
    obtain ⟨ends, tail⟩ := Spells.compactMembers others spelled
    have head := Spells.compact first ends tail
    refine ⟨⟨rfl, by decide, by decide, by decide⟩, ?_⟩
    simpa [Json.compactMembers, tokensOfMembers] using Spells.token .comma (.token (.string key) (.token .colon head))

end

theorem Spells.newline {ts : List Token} {text : List Char} (level : Nat) (spelled : Spells ts text) :
    Spells ts (Json.newline level ++ text) := by
  have indented : ∀ n, Spells ts (List.replicate n ' ' ++ text) := by
    intro n
    induction n with
    | zero => exact spelled
    | succ n ih => exact .blank rfl ih
  exact .blank rfl (indented (2 * level))

mutual

theorem Spells.pretty : ∀ {j : Json} (level : Nat) {ts : List Token} {rest : List Char},
    HasIntegers j → EndsNumber rest → Spells ts rest → Spells (tokensOf j ++ ts) (j.prettyAt level ++ rest)
  | .null, _, _, _, _, _, spelled => .token .null spelled
  | .bool b, _, _, _, _, _, spelled => .token (.bool b) spelled
  | .number _, _, _, _, integer, ends, spelled => .number integer ends spelled
  | .string s, _, _, _, _, _, spelled => .token (.string s) spelled
  | .array [], _, _, _, _, _, spelled => by
    simpa [Json.prettyAt, tokensOf] using Spells.token .openArray (.token .closeArray spelled)
  | .array (item :: items), level, ts, rest, ⟨first, others⟩, _, spelled => by
    obtain ⟨ends, tail⟩ := Spells.prettyItems level others spelled
    have head := Spells.pretty (level + 1) first ends tail
    simpa [Json.prettyAt, tokensOf] using Spells.token .openArray (head.newline (level + 1))
  | .object [], _, _, _, _, _, spelled => by
    simpa [Json.prettyAt, tokensOf] using Spells.token .openObject (.token .closeObject spelled)
  | .object ((key, value) :: members), level, ts, rest, ⟨first, others⟩, _, spelled => by
    obtain ⟨ends, tail⟩ := Spells.prettyMembers level others spelled
    have head : Spells _ (' ' :: _) := .blank rfl (Spells.pretty (level + 1) first ends tail)
    have member := Spells.token (.string key) (.token .colon head)
    simpa [Json.prettyAt, tokensOf] using Spells.token .openObject (member.newline (level + 1))

theorem Spells.prettyItems : ∀ {items : List Json} (level : Nat) {ts : List Token} {rest : List Char},
    ItemsHaveIntegers items → Spells ts rest → EndsNumber (Json.prettyItems level items ++ rest) ∧
      Spells (tokensOfItems items ++ ts) (Json.prettyItems level items ++ rest)
  | [], level, _, _, _, spelled => by
    refine ⟨⟨rfl, by decide, by decide, by decide⟩, ?_⟩
    simpa [Json.prettyItems, tokensOfItems] using (Spells.token .closeArray spelled).newline level
  | item :: items, level, ts, rest, ⟨first, others⟩, spelled => by
    obtain ⟨ends, tail⟩ := Spells.prettyItems level others spelled
    have head := Spells.pretty (level + 1) first ends tail
    refine ⟨⟨rfl, by decide, by decide, by decide⟩, ?_⟩
    simpa [Json.prettyItems, tokensOfItems] using Spells.token .comma (head.newline (level + 1))

theorem Spells.prettyMembers : ∀ {members : List (String × Json)} (level : Nat) {ts : List Token} {rest : List Char},
    MembersHaveIntegers members → Spells ts rest → EndsNumber (Json.prettyMembers level members ++ rest) ∧
      Spells (tokensOfMembers members ++ ts) (Json.prettyMembers level members ++ rest)
  | [], level, _, _, _, spelled => by
    refine ⟨⟨rfl, by decide, by decide, by decide⟩, ?_⟩
    simpa [Json.prettyMembers, tokensOfMembers] using (Spells.token .closeObject spelled).newline level
  | (key, value) :: members, level, ts, rest, ⟨first, others⟩, spelled => by
    obtain ⟨ends, tail⟩ := Spells.prettyMembers level others spelled
    have head : Spells _ (' ' :: _) := .blank rfl (Spells.pretty (level + 1) first ends tail)
    have member := Spells.token (.string key) (.token .colon head)
    refine ⟨⟨rfl, by decide, by decide, by decide⟩, ?_⟩
    simpa [Json.prettyMembers, tokensOfMembers] using Spells.token .comma (member.newline (level + 1))

end

/-- The compact text of a tree spells its tokens. -/
theorem spells_compact {j : Json} (integers : HasIntegers j) : Spells (tokensOf j) j.compact := by
  have ends : EndsNumber [] := trivial
  simpa using Spells.compact integers ends .nil

/-- The indented text of a tree spells its tokens, at every level of indentation. -/
theorem spells_pretty {j : Json} (integers : HasIntegers j) (level : Nat) : Spells (tokensOf j) (j.prettyAt level) := by
  have ends : EndsNumber [] := trivial
  simpa using Spells.pretty level integers ends .nil

end Json
end PatchPanel
