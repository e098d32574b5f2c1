import PatchPanel.Proofs.Json.Numerals
import PatchPanel.Proofs.Text.Numerals
import Mathlib.Algebra.Group.Nat.Defs
import Mathlib.Data.List.Induction

/-!
The grammar of tokens, apart from the scanner that finds them: which characters a string may be written with, which
texts are numbers, and which rows of tokens a text denotes (`Denotes`). The scanner finds in a text what it denotes
(`tokens_of_denotes`), and where it finds nothing broken, the text denotes what it finds (`denotes_of_sound`).
-/
namespace PatchPanel.Json

/-! ### The grammar -/

/-- The letters of escapes with the characters that they stand for. -/
def escapeLetters : List (Char × Char) :=
  [('"', '"'), ('\\', '\\'), ('/', '/'), ('b', '\x08'), ('f', '\x0c'), ('n', '\n'), ('r', '\r'), ('t', '\t')]

/-- Four hexadecimal digits of a number. -/
def IsUnit (w : List Char) (n : Nat) : Prop := w.length = 4 ∧ Numeral.ofHexDigits? w = some n

/-- The ways to write a character inside quotation marks: as it stands, by a letter, by its number, or by the two
    halves of a surrogate pair. -/
inductive CharForm : Char → List Char → Prop where
  | plain {c : Char} : c ≠ '"' → c ≠ '\\' → 0x20 ≤ c.toNat → CharForm c [c]
  | letter {c l : Char} : (l, c) ∈ escapeLetters → CharForm c ['\\', l]
  | unit {c : Char} {w : List Char} : IsUnit w c.toNat → CharForm c ('\\' :: 'u' :: w)
  | pair {c : Char} {high low : List Char} {h l : Nat} : IsUnit high h → IsUnit low l →
    0xD800 ≤ h → h ≤ 0xDBFF → 0xDC00 ≤ l → l ≤ 0xDFFF → c.toNat = 0x10000 + (h - 0xD800) * 0x400 + (l - 0xDC00) →
    CharForm c ('\\' :: 'u' :: high ++ '\\' :: 'u' :: low)

/-- The text writes the characters one after the other. -/
inductive CharForms : List Char → List Char → Prop where
  | nil : CharForms [] []
  | cons {c : Char} {w : List Char} {cs ws : List Char} : CharForm c w → CharForms cs ws → CharForms (c :: cs) (w ++ ws)

/-- The text of a token other than a number. -/
inductive TokenForm : Token → List Char → Prop where
  | openArray : TokenForm .openArray ['[']
  | closeArray : TokenForm .closeArray [']']
  | openObject : TokenForm .openObject ['\x7b']
  | closeObject : TokenForm .closeObject ['\x7d']
  | comma : TokenForm .comma [',']
  | colon : TokenForm .colon [':']
  | null : TokenForm .null ['n', 'u', 'l', 'l']
  | on : TokenForm (.bool true) ['t', 'r', 'u', 'e']
  | off : TokenForm (.bool false) ['f', 'a', 'l', 's', 'e']
  | string {cs w : List Char} : CharForms cs w → TokenForm (.string (.readable (String.ofList cs))) ('"' :: w ++ ['"'])

/-- No number goes on with the text. -/
def EndsNumber : List Char → Prop
  | [] => True
  | c :: _ => Numeral.isDigit c = false ∧ c ≠ '.' ∧ c ≠ 'e' ∧ c ≠ 'E'

/-- The text has the tokens in their order, each in one of its forms, with any blanks between them. -/
inductive Denotes : List Token → List Char → Prop where
  | nil : Denotes [] []
  | blank {ts : List Token} {c : Char} {text : List Char} :
    isBlank c = true → Denotes ts text → Denotes ts (c :: text)
  | token {t : Token} {w : List Char} {ts : List Token} {text : List Char} :
    TokenForm t w → Denotes ts text → Denotes (t :: ts) (w ++ text)
  | number {n : Number} {w : List Char} {ts : List Token} {text : List Char} : IsNumeral w →
    numberOf w = .readable n → EndsNumber text → Denotes ts text → Denotes (.number (.readable n) :: ts) (w ++ text)

/-! ### Sound tokens -/

/-- The token stands for something: it is not garbled and the text does not break off with it. -/
def Token.isSound : Token → Bool
  | .openArray | .closeArray | .openObject | .closeObject | .comma | .colon | .null | .bool _ => true
  | .number (.readable _) | .string (.readable _) => true
  | .number .garbled | .string .garbled | .brokenWord _ | .brokenNumber _ | .brokenString _ _ | .stray => false

def AllSound (ts : List Token) : Prop := ∀ t ∈ ts, t.isSound = true

theorem allSound_cons {t : Token} {ts : List Token} : AllSound (t :: ts) ↔ t.isSound = true ∧ AllSound ts :=
  List.forall_mem_cons

theorem allSound_append {ts us : List Token} : AllSound (ts ++ us) ↔ AllSound ts ∧ AllSound us :=
  List.forall_mem_append

theorem not_allSound {t : Token} {ts : List Token} (broken : t.isSound = false) : ¬ AllSound (t :: ts) := by
  rw [allSound_cons, broken]
  exact fun both => Bool.noConfusion both.1

/-! ### Steps of the scanner -/

theorem scan_step {state next : ScanState} {c : Char} {ts : List Token} (step : state.step c = ⟨ts, some next⟩)
    (text : List Char) : scan state (c :: text) = ts ++ scan next text := by
  rw [scan, step]
  cases ts <;> rfl

theorem scan_stop {state : ScanState} {c : Char} {ts : List Token} (step : state.step c = ⟨ts, none⟩)
    (text : List Char) : scan state (c :: text) = ts := by
  rw [scan, step]
  cases ts <;> rfl

/-- States that take a step alike go on alike. -/
theorem scan_alike {state other : ScanState} {c : Char} (step : state.step c = other.step c) (text : List Char) :
    scan state (c :: text) = scan other (c :: text) := by
  rw [scan, scan, step]

theorem scan_blank {c : Char} (blank : isBlank c = true) (text : List Char) :
    scan .between (c :: text) = scan .between text := by
  have step : ScanState.between.step c = ⟨[], some .between⟩ := by simp [ScanState.step, beginToken, blank]
  rw [scan_step step, List.nil_append]

/-! ### Escapes by number -/

theorem utf8ByteSize_concat (cs : List Char) (c : Char) :
    (String.ofList (cs ++ [c])).utf8ByteSize = (String.ofList cs).utf8ByteSize + c.utf8Size := by
  rw [String.ofList_append, String.utf8ByteSize_append, ← String.utf8ByteSize_singleton, String.singleton_eq_ofList]

/-- A hexadecimal digit has one of sixteen values, and one byte. -/
theorem hexValue?_eq_some {c : Char} {n : Nat} (digit : Numeral.hexValue? c = some n) : n < 16 ∧ c.utf8Size = 1 := by
  have ranges := Numeral.ranges_of_hexValue? digit
  have ascii : c.toNat ≤ 127 := by omega
  exact ⟨by omega, Char.utf8Size_eq_one_iff.mpr ascii⟩

theorem ofHexDigits?_concat {ds : List Char} {c : Char} {n : Nat} :
    Numeral.ofHexDigits? (ds ++ [c]) = some n ↔
      ∃ m d, Numeral.ofHexDigits? ds = some m ∧ Numeral.hexValue? c = some d ∧ n = m * 16 + d := by
  unfold Numeral.ofHexDigits?
  rw [List.foldlM_append]
  simp only [List.foldlM_cons, List.foldlM_nil, Option.bind_eq_bind, Option.bind_eq_some_iff, Option.map_eq_some_iff]
  constructor
  · rintro ⟨m, first, _, ⟨d, digit, rfl⟩, same⟩
    exact ⟨m, d, first, digit, (Option.some.inj same).symm⟩
  · rintro ⟨m, d, first, digit, rfl⟩
    exact ⟨m, first, _, ⟨d, digit, rfl⟩, rfl⟩

/-- A row of hexadecimal digits has one byte for each digit, and its value is bounded by their number. -/
theorem ofHexDigits?_bounds {ds : List Char} {n : Nat} (digits : Numeral.ofHexDigits? ds = some n) :
    (String.ofList ds).utf8ByteSize = ds.length ∧ n < 16 ^ ds.length := by
  induction ds using List.reverseRecOn generalizing n with
  | nil =>
    cases digits
    exact ⟨rfl, by decide⟩
  | append_singleton ds c ih =>
    obtain ⟨m, d, first, last, rfl⟩ := ofHexDigits?_concat.mp digits
    obtain ⟨size, below⟩ := ih first
    obtain ⟨small, one⟩ := hexValue?_eq_some last
    refine ⟨by rw [utf8ByteSize_concat, size, one, List.length_append, List.length_singleton], ?_⟩
    rw [List.length_append, List.length_singleton, Nat.pow_succ]
    omega

theorem IsUnit.ne_nil {w : List Char} {n : Nat} (unit : IsUnit w n) : w ≠ [] := by
  rintro rfl
  cases unit.1

theorem toNat_ofNat {n : Nat} (valid : n.isValidChar) : (Char.ofNat n).toNat = n := by
  rw [Char.ofNat, dif_pos valid]
  rfl

theorem ofHexDigits?_prefix {ds more : List Char} {n : Nat} (digits : Numeral.ofHexDigits? (ds ++ more) = some n) :
    ∃ m, Numeral.ofHexDigits? ds = some m := by
  unfold Numeral.ofHexDigits? at digits ⊢
  rw [List.foldlM_append] at digits
  obtain ⟨m, first, _⟩ := Option.bind_eq_some_iff.mp digits
  exact ⟨m, first⟩

section
variable {half : Option Nat} {reversed : List Char} {garbled : Bool}

theorem step_digit {digits : List Char} {c : Char} (short : (String.ofList (digits ++ [c])).utf8ByteSize < 4) :
    (ScanState.string ⟨.hex half digits, reversed, garbled⟩).step c =
      ⟨[], some (.string ⟨.hex half (digits ++ [c]), reversed, garbled⟩)⟩ := by
  simp only [ScanState.step, stepString, if_pos short]

theorem step_lastDigit {digits : List Char} {c : Char} {n : Nat}
    (long : ¬ (String.ofList (digits ++ [c])).utf8ByteSize < 4)
    (value : Numeral.ofHexDigits? (digits ++ [c]) = some n) :
    (ScanState.string ⟨.hex half digits, reversed, garbled⟩).step c =
      ⟨[], some (.string (OpenString.pushUnit ⟨.plain, reversed, garbled⟩ half n))⟩ := by
  simp only [ScanState.step, stepString, if_neg long, value]
  rfl

/-- Four hexadecimal digits complete an escape by number, however many of them the scanner has taken. -/
theorem scan_digits {more digits : List Char} {n : Nat} (due : more ≠ []) (unit : IsUnit (digits ++ more) n)
    (rest : List Char) :
    scan (.string ⟨.hex half digits, reversed, garbled⟩) (more ++ rest) =
      scan (.string (OpenString.pushUnit ⟨.plain, reversed, garbled⟩ half n)) rest := by
  induction more generalizing digits with
  | nil => exact absurd rfl due
  | cons c more ih =>
    have split : digits ++ c :: more = (digits ++ [c]) ++ more := by simp
    rw [split] at unit
    obtain ⟨m, value⟩ := ofHexDigits?_prefix unit.2
    have size := (ofHexDigits?_bounds value).1
    have length := unit.1
    rw [List.length_append] at length
    cases more with
    | nil =>
      rw [List.append_nil] at unit
      rw [List.length_nil] at length
      rw [List.cons_append, scan_step (step_lastDigit (by omega) unit.2)]
      rfl
    | cons d more =>
      rw [List.length_cons] at length
      rw [List.cons_append, scan_step (step_digit (by omega)), List.nil_append]
      exact ih (by simp) unit

theorem scan_unit {w : List Char} {n : Nat} (unit : IsUnit w n) (rest : List Char) :
    scan (.string ⟨.hex half [], reversed, garbled⟩) (w ++ rest) =
      scan (.string (OpenString.pushUnit ⟨.plain, reversed, garbled⟩ half n)) rest :=
  scan_digits unit.ne_nil (show IsUnit ([] ++ w) n from unit) rest

theorem digits_of_sound {text digits : List Char} (short : (String.ofList digits).utf8ByteSize < 4)
    (sound : AllSound (scan (.string ⟨.hex half digits, reversed, garbled⟩) text)) :
    ∃ more rest n, text = more ++ rest ∧ more ≠ [] ∧ IsUnit (digits ++ more) n := by
  induction text generalizing digits with
  | nil => exact absurd sound (not_allSound rfl)
  | cons c text ih =>
    by_cases goesOn : (String.ofList (digits ++ [c])).utf8ByteSize < 4
    · rw [scan_step (step_digit goesOn)] at sound
      obtain ⟨more, rest, n, rfl, _, unit⟩ := ih goesOn sound
      refine ⟨c :: more, rest, n, rfl, by simp, ?_⟩
      rwa [List.append_assoc] at unit
    · cases value : Numeral.ofHexDigits? (digits ++ [c]) with
      | none =>
        have breaks : (ScanState.string ⟨.hex half digits, reversed, garbled⟩).step c =
            ⟨[OpenString.broken ⟨.hex half digits, reversed, garbled⟩ .malformed], none⟩ := by
          simp only [ScanState.step, stepString, if_neg goesOn, value]
        rw [scan_stop breaks] at sound
        exact absurd sound (not_allSound rfl)
      | some n =>
        obtain ⟨m, before⟩ := ofHexDigits?_prefix value
        have size := (ofHexDigits?_bounds before).1
        have sizeAll := (ofHexDigits?_bounds value).1
        rw [List.length_append, List.length_singleton] at sizeAll
        refine ⟨[c], text, n, rfl, by simp, ?_, value⟩
        rw [List.length_append, List.length_singleton]
        omega

/-- Where an escape by number does not break off, it has four hexadecimal digits. -/
theorem unit_of_sound {text : List Char} (sound : AllSound (scan (.string ⟨.hex half [], reversed, garbled⟩) text)) :
    ∃ w rest n, text = w ++ rest ∧ IsUnit w n := by
  obtain ⟨w, rest, n, same, _, unit⟩ := digits_of_sound (by decide) sound
  exact ⟨w, rest, n, same, unit⟩

end

/-! ### Strings -/

theorem unescape?_eq_some_iff {l c : Char} : unescape? l = some c ↔ (l, c) ∈ escapeLetters := by
  unfold unescape? escapeLetters
  simp only [List.mem_cons, Prod.mk.injEq, List.not_mem_nil, or_false]
  constructor
  · intro known
    repeat' split at known
    all_goals cases known
    all_goals simp [*]
  · rintro (⟨rfl, rfl⟩ | ⟨rfl, rfl⟩ | ⟨rfl, rfl⟩ | ⟨rfl, rfl⟩ | ⟨rfl, rfl⟩ | ⟨rfl, rfl⟩ | ⟨rfl, rfl⟩ | ⟨rfl, rfl⟩)
    all_goals rfl

/-- The number of a character is half of no surrogate pair. -/
theorem not_isHalf (c : Char) : isHighHalf c.toNat = false ∧ isLowHalf c.toNat = false := by
  have valid : c.toNat.isValidChar := c.valid
  simp only [Nat.isValidChar] at valid
  simp only [isHighHalf, isLowHalf, decide_eq_false_iff_not]
  omega

/-- A character in any of its forms is read as the character. -/
theorem scan_charForm {c : Char} {w : List Char} (form : CharForm c w) (reversed : List Char) (garbled : Bool)
    (rest : List Char) :
    scan (.string ⟨.plain, reversed, garbled⟩) (w ++ rest) = scan (.string ⟨.plain, c :: reversed, garbled⟩) rest := by
  have escapes : (ScanState.string ⟨.plain, reversed, garbled⟩).step '\\' =
      ⟨[], some (.string ⟨.escape, reversed, garbled⟩)⟩ := rfl
  have byNumber : (ScanState.string ⟨.escape, reversed, garbled⟩).step 'u' =
      ⟨[], some (.string ⟨.hex none [], reversed, garbled⟩)⟩ := rfl
  cases form with
  | plain notQuote notBackslash noControl =>
    have step : (ScanState.string ⟨.plain, reversed, garbled⟩).step c =
        ⟨[], some (.string ⟨.plain, c :: reversed, garbled⟩)⟩ := by
      simp [ScanState.step, stepString, stepPlain, OpenString.push, notQuote, notBackslash, Nat.not_lt.mpr noControl]
    exact scan_step step rest
  | @letter l listed =>
    have known := unescape?_eq_some_iff.mpr listed
    have notUnit : l ≠ 'u' := by
      rintro rfl
      cases known
    have step : (ScanState.string ⟨.escape, reversed, garbled⟩).step l =
        ⟨[], some (.string ⟨.plain, c :: reversed, garbled⟩)⟩ := by
      simp [ScanState.step, stepString, stepEscape, OpenString.push, notUnit, known]
    rw [List.cons_append, scan_step escapes, List.nil_append, List.cons_append, scan_step step]
    rfl
  | unit unit =>
    obtain ⟨notHigh, notLow⟩ := not_isHalf c
    rw [List.cons_append, scan_step escapes, List.nil_append, List.cons_append, scan_step byNumber, List.nil_append,
      scan_unit unit]
    simp [OpenString.pushUnit, OpenString.push, notHigh, notLow, Char.ofNat_toNat]
  | @pair high low h l ofHigh ofLow fromHigh toHigh fromLow toLow joined =>
    have isHigh : isHighHalf h = true := by simp [isHighHalf, fromHigh, toHigh]
    have isLow : isLowHalf l = true := by simp [isLowHalf, fromLow, toLow]
    have join : joinHalves h l = c := by rw [joinHalves, ← joined, Char.ofNat_toNat]
    have half : OpenString.pushUnit ⟨.plain, reversed, garbled⟩ none h = ⟨.afterHalf h, reversed, garbled⟩ := by
      simp [OpenString.pushUnit, isHigh]
    have whole : OpenString.pushUnit ⟨.plain, reversed, garbled⟩ (some h) l = ⟨.plain, c :: reversed, garbled⟩ := by
      simp [OpenString.pushUnit, isLow, join, OpenString.push]
    have escapesAgain : (ScanState.string ⟨.afterHalf h, reversed, garbled⟩).step '\\' =
        ⟨[], some (.string ⟨.escapeAfterHalf h, reversed, garbled⟩)⟩ := rfl
    have numberAgain : (ScanState.string ⟨.escapeAfterHalf h, reversed, garbled⟩).step 'u' =
        ⟨[], some (.string ⟨.hex (some h) [], reversed, garbled⟩)⟩ := rfl
    simp only [List.cons_append, List.append_assoc]
    rw [scan_step escapes, List.nil_append, scan_step byNumber, List.nil_append, scan_unit ofHigh, half,
      scan_step escapesAgain, List.nil_append, scan_step numberAgain, List.nil_append, scan_unit ofLow, whole]

theorem scan_charForms {cs w : List Char} (forms : CharForms cs w) (reversed : List Char) (garbled : Bool)
    (rest : List Char) :
    scan (.string ⟨.plain, reversed, garbled⟩) (w ++ rest) =
      scan (.string ⟨.plain, cs.reverse ++ reversed, garbled⟩) rest := by
  induction forms generalizing reversed with
  | nil => rfl
  | cons form _ ih =>
    rw [List.append_assoc, scan_charForm form, ih, List.reverse_cons, List.append_assoc]
    rfl

/-- The step leads from a garbled string to a garbled string, or completes a token that is not sound. -/
def Step.StaysGarbled (step : Step) : Prop :=
  (∃ o : OpenString, step = ⟨[], some (.string o)⟩ ∧ o.garbled = true) ∨
    ∃ t next, step = ⟨[t], next⟩ ∧ t.isSound = false

section
variable {o : OpenString}

theorem stepPlain_garbled (garbled : o.garbled = true) (c : Char) : (stepPlain o c).StaysGarbled := by
  unfold stepPlain
  split
  · exact .inr ⟨_, _, rfl, by rw [OpenString.lexeme, if_pos garbled]; rfl⟩
  split
  · exact .inl ⟨_, rfl, garbled⟩
  split
  · exact .inr ⟨_, _, rfl, rfl⟩
  · exact .inl ⟨_, rfl, garbled⟩

theorem stepEscape_garbled (garbled : o.garbled = true) (c : Char) : (stepEscape o c).StaysGarbled := by
  unfold stepEscape
  split
  · exact .inl ⟨_, rfl, garbled⟩
  split
  · exact .inl ⟨_, rfl, garbled⟩
  · exact .inr ⟨_, _, rfl, rfl⟩

theorem pushUnit_garbled (garbled : o.garbled = true) (half : Option Nat) (n : Nat) :
    (o.pushUnit half n).garbled = true := by
  unfold OpenString.pushUnit
  cases half with
  | some high => cases isLowHalf n <;> simp [OpenString.push, OpenString.spoil, garbled]
  | none => cases isHighHalf n <;> cases isLowHalf n <;> simp [OpenString.push, OpenString.spoil, garbled]

theorem stepString_garbled (garbled : o.garbled = true) (c : Char) : (stepString o c).StaysGarbled := by
  unfold stepString
  split
  · exact stepPlain_garbled garbled c
  · exact stepEscape_garbled garbled c
  · split
    · exact .inl ⟨_, rfl, garbled⟩
    · exact stepPlain_garbled rfl c
  · split
    · exact .inl ⟨_, rfl, garbled⟩
    · exact stepEscape_garbled rfl c
  · simp only
    split
    · exact .inl ⟨_, rfl, garbled⟩
    split
    · exact .inl ⟨_, rfl, pushUnit_garbled garbled _ _⟩
    · exact .inr ⟨_, _, rfl, rfl⟩

/-- No sound tokens come of a garbled string. -/
theorem not_allSound_garbled (garbled : o.garbled = true) (text : List Char) : ¬ AllSound (scan (.string o) text) := by
  induction text generalizing o with
  | nil => exact not_allSound rfl
  | cons c text ih =>
    have step : (ScanState.string o).step c = stepString o c := rfl
    rcases stepString_garbled garbled c with ⟨next, stays, still⟩ | ⟨t, next, completes, broken⟩
    · rw [scan_step (step.trans stays)]
      exact ih still
    · cases next with
      | none =>
        rw [scan_stop (step.trans completes)]
        exact not_allSound broken
      | some next =>
        rw [scan_step (step.trans completes)]
        exact not_allSound broken

end

section
variable {reversed text : List Char}

/-- Behind the first half of a surrogate pair, only the second half by number leads on. -/
theorem pair_of_sound {h : Nat} (sound : AllSound (scan (.string ⟨.afterHalf h, reversed, false⟩) text)) :
    ∃ low rest l, text = '\\' :: 'u' :: low ++ rest ∧ IsUnit low l ∧ isLowHalf l = true := by
  cases text with
  | nil => exact absurd sound (not_allSound rfl)
  | cons c text =>
    by_cases escapes : c = '\\'
    · subst escapes
      have escapesAgain : (ScanState.string ⟨.afterHalf h, reversed, false⟩).step '\\' =
          ⟨[], some (.string ⟨.escapeAfterHalf h, reversed, false⟩)⟩ := rfl
      rw [scan_step escapesAgain, List.nil_append] at sound
      cases text with
      | nil => exact absurd sound (not_allSound rfl)
      | cons d text =>
        by_cases byNumber : d = 'u'
        · subst byNumber
          have numberAgain : (ScanState.string ⟨.escapeAfterHalf h, reversed, false⟩).step 'u' =
              ⟨[], some (.string ⟨.hex (some h) [], reversed, false⟩)⟩ := rfl
          rw [scan_step numberAgain, List.nil_append] at sound
          obtain ⟨low, rest, l, rfl, unit⟩ := unit_of_sound sound
          refine ⟨low, rest, l, rfl, unit, ?_⟩
          by_contra notLow
          rw [scan_unit unit] at sound
          refine not_allSound_garbled ?_ rest sound
          simp [OpenString.pushUnit, notLow, OpenString.spoil]
        · have alike : (ScanState.string ⟨.escapeAfterHalf h, reversed, false⟩).step d =
              (ScanState.string ⟨.escape, reversed, true⟩).step d := by
            simp [ScanState.step, stepString, stepEscape, byNumber, OpenString.spoil, OpenString.push,
              OpenString.broken]
          rw [scan_alike alike] at sound
          exact absurd sound (not_allSound_garbled rfl _)
    · have alike : (ScanState.string ⟨.afterHalf h, reversed, false⟩).step c =
          (ScanState.string ⟨.plain, reversed, true⟩).step c := by
        simp only [ScanState.step, stepString, if_neg escapes]
        rfl
      rw [scan_alike alike] at sound
      exact absurd sound (not_allSound_garbled rfl _)

/-- An escape by number in which nothing is lost is that of a character, or the two halves of a pair. -/
theorem unitForm_of_sound (sound : AllSound (scan (.string ⟨.hex none [], reversed, false⟩) text)) :
    ∃ c w rest, CharForm c ('\\' :: 'u' :: w) ∧ text = w ++ rest := by
  obtain ⟨w, rest, n, rfl, unit⟩ := unit_of_sound sound
  rw [scan_unit unit] at sound
  have below : n < 65536 := by
    have bound := (ofHexDigits?_bounds unit.2).2
    rwa [unit.1] at bound
  by_cases high : isHighHalf n = true
  · have half : OpenString.pushUnit ⟨.plain, reversed, false⟩ none n = ⟨.afterHalf n, reversed, false⟩ := by
      simp [OpenString.pushUnit, high]
    rw [half] at sound
    obtain ⟨low, rest, l, rfl, ofLow, isLow⟩ := pair_of_sound sound
    simp only [isHighHalf, isLowHalf, decide_eq_true_eq] at high isLow
    refine ⟨joinHalves n l, w ++ '\\' :: 'u' :: low, rest, ?_, by simp⟩
    refine .pair unit ofLow high.1 high.2 isLow.1 isLow.2 (toNat_ofNat ?_)
    simp only [Nat.isValidChar]
    omega
  by_cases low : isLowHalf n = true
  · refine absurd sound (not_allSound_garbled ?_ rest)
    simp [OpenString.pushUnit, high, low, OpenString.spoil]
  · have valid : (Char.ofNat n).toNat = n := by
      simp only [isHighHalf, isLowHalf, decide_eq_true_eq] at high low
      refine toNat_ofNat ?_
      simp only [Nat.isValidChar]
      omega
    exact ⟨Char.ofNat n, w, rest, .unit (by rwa [valid]), rfl⟩

/-- Where a string does not break off and nothing in it is lost, it ends, or goes on with a character in one of its
    forms. -/
theorem charForm_of_sound (sound : AllSound (scan (.string ⟨.plain, reversed, false⟩) text)) :
    (∃ rest, text = '"' :: rest) ∨ ∃ c w rest, CharForm c w ∧ w ≠ [] ∧ text = w ++ rest := by
  cases text with
  | nil => exact absurd sound (not_allSound rfl)
  | cons c text =>
    by_cases quote : c = '"'
    · exact .inl ⟨text, by rw [quote]⟩
    by_cases escapes : c = '\\'
    · subst escapes
      have step : (ScanState.string ⟨.plain, reversed, false⟩).step '\\' =
          ⟨[], some (.string ⟨.escape, reversed, false⟩)⟩ := rfl
      rw [scan_step step, List.nil_append] at sound
      cases text with
      | nil => exact absurd sound (not_allSound rfl)
      | cons l text =>
        by_cases byNumber : l = 'u'
        · subst byNumber
          have step : (ScanState.string ⟨.escape, reversed, false⟩).step 'u' =
              ⟨[], some (.string ⟨.hex none [], reversed, false⟩)⟩ := rfl
          rw [scan_step step, List.nil_append] at sound
          obtain ⟨d, w, rest, form, rfl⟩ := unitForm_of_sound sound
          exact .inr ⟨d, _, rest, form, by simp, rfl⟩
        · cases known : unescape? l with
          | none =>
            have stop : (ScanState.string ⟨.escape, reversed, false⟩).step l =
                ⟨[OpenString.broken ⟨.escape, reversed, false⟩ .malformed], none⟩ := by
              simp only [ScanState.step, stepString, stepEscape, if_neg byNumber, known]
            rw [scan_stop stop] at sound
            exact absurd sound (not_allSound rfl)
          | some d => exact .inr ⟨d, ['\\', l], text, .letter (unescape?_eq_some_iff.mp known), by simp, rfl⟩
    by_cases control : c.toNat < 0x20
    · have stop : (ScanState.string ⟨.plain, reversed, false⟩).step c =
          ⟨[OpenString.broken ⟨.plain, reversed, false⟩ .malformed], none⟩ := by
        simp only [ScanState.step, stepString, stepPlain, if_neg quote, if_neg escapes, if_pos control]
      rw [scan_stop stop] at sound
      exact absurd sound (not_allSound rfl)
    · exact .inr ⟨c, [c], text, .plain quote escapes (Nat.not_lt.mp control), by simp, rfl⟩

/-- A quotation mark ends a string. -/
theorem scan_endString (reversed text : List Char) :
    scan (.string ⟨.plain, reversed, false⟩) ('"' :: text) =
      .string (.readable (String.ofList reversed.reverse)) :: scan .between text := by
  have step : (ScanState.string ⟨.plain, reversed, false⟩).step '"' =
      ⟨[.string (.readable (String.ofList reversed.reverse))], some .between⟩ := rfl
  rw [scan_step step]
  rfl

/-- Where a string does not break off and nothing in it is lost, it is a row of characters in their forms. -/
theorem charForms_of_sound {n : Nat} (short : text.length ≤ n)
    (sound : AllSound (scan (.string ⟨.plain, reversed, false⟩) text)) :
    ∃ cs w rest, CharForms cs w ∧ text = w ++ '"' :: rest := by
  induction n generalizing text reversed with
  | zero =>
    cases List.length_eq_zero_iff.mp (Nat.le_zero.mp short)
    exact absurd sound (not_allSound rfl)
  | succ n ih =>
    rcases charForm_of_sound sound with ⟨rest, rfl⟩ | ⟨c, w, rest, form, nonempty, rfl⟩
    · exact ⟨[], [], rest, .nil, rfl⟩
    · rw [scan_charForm form] at sound
      have shorter : rest.length ≤ n := by
        have positive := List.length_pos_iff.mpr nonempty
        rw [List.length_append] at short
        omega
      obtain ⟨cs, ws, after, forms, rfl⟩ := ih shorter sound
      exact ⟨c :: cs, w ++ ws, after, .cons form forms, by simp⟩

end

/-! ### Numbers -/

/-- A complete number ends where no number goes on. -/
theorem scan_endNumber {part : NumberPart} (complete : part.isComplete = true) (reversed : List Char) {rest : List Char}
    (ends : EndsNumber rest) :
    scan (.number part reversed) rest = .number (numberOf reversed.reverse) :: scan .between rest := by
  cases rest with
  | nil => simp [scan, ScanState.finish, complete]
  | cons c rest =>
    obtain ⟨noDigit, noPoint, noMark, noLargeMark⟩ := ends
    have stops : part.next? c = none := by
      cases part <;> first | (cases complete; done) | simp [NumberPart.next?, noDigit, noPoint, noMark, noLargeMark]
    have step : (ScanState.number part reversed).step c =
        ⟨.number (numberOf reversed.reverse) :: (beginToken c).tokens, (beginToken c).next⟩ := by
      simp [ScanState.step, stepNumber, stops, complete, noDigit]
    have begins : ScanState.between.step c = beginToken c := rfl
    rw [scan, step, scan, begins]
    cases beginToken c with
    | mk tokens next => cases tokens <;> cases next <;> rfl

/-- The scanner takes what completes a number. -/
theorem scan_accepts {part : NumberPart} {more : List Char} (accepts : part.Accepts more) (reversed : List Char)
    {rest : List Char} (ends : EndsNumber rest) :
    scan (.number part reversed) (more ++ rest) =
      .number (numberOf (reversed.reverse ++ more)) :: scan .between rest := by
  induction more generalizing part reversed with
  | nil => simpa using scan_endNumber accepts reversed ends
  | cons c more ih =>
    obtain ⟨next, goesOn, accepts⟩ := accepts
    have step : (ScanState.number part reversed).step c = ⟨[], some (.number next (c :: reversed))⟩ := by
      simp only [ScanState.step, stepNumber, goesOn]
    rw [List.cons_append, scan_step step, List.nil_append, ih accepts]
    simp

/-- Where a number does not break off, the text completes it and goes on with something else. -/
theorem accepts_of_sound {part : NumberPart} {reversed text : List Char}
    (sound : AllSound (scan (.number part reversed) text)) :
    ∃ more rest, text = more ++ rest ∧ part.Accepts more ∧ EndsNumber rest := by
  induction text generalizing part reversed with
  | nil =>
    cases complete : part.isComplete with
    | true => exact ⟨[], [], rfl, complete, trivial⟩
    | false =>
      rw [scan, ScanState.finish, complete] at sound
      exact absurd sound (not_allSound rfl)
  | cons c text ih =>
    cases next : part.next? c with
    | some further =>
      have step : (ScanState.number part reversed).step c = ⟨[], some (.number further (c :: reversed))⟩ := by
        simp only [ScanState.step, stepNumber, next]
      rw [scan_step step, List.nil_append] at sound
      obtain ⟨more, rest, rfl, accepts, ends⟩ := ih sound
      exact ⟨c :: more, rest, rfl, ⟨further, next, accepts⟩, ends⟩
    | none =>
      cases breaks : !part.isComplete || (part = .zero && Numeral.isDigit c) with
      | true =>
        have step : (ScanState.number part reversed).step c = ⟨[.brokenNumber .malformed], none⟩ := by
          simp only [ScanState.step, stepNumber, next, breaks, ↓reduceIte]
        rw [scan_stop step] at sound
        exact absurd sound (not_allSound rfl)
      | false =>
        have step : (ScanState.number part reversed).step c =
            ⟨.number (numberOf reversed.reverse) :: (beginToken c).tokens, (beginToken c).next⟩ := by
          simp [ScanState.step, stepNumber, next, breaks]
        simp only [Bool.or_eq_false_iff, Bool.not_eq_false', Bool.and_eq_false_iff, decide_eq_false_iff_not] at breaks
        obtain ⟨complete, noZero⟩ := breaks
        refine ⟨[], c :: text, rfl, complete, ?_⟩
        -- A point or the letter of an exponent begins no token, and a digit goes on with all complete parts but zero.
        have begun : ∀ d, c = d → beginToken d ≠ ⟨[.stray], none⟩ := by
          rintro _ rfl stray
          rw [stray] at step
          rw [scan_stop step] at sound
          exact not_allSound rfl (allSound_cons.mp sound).2
        have digit : Numeral.isDigit c = false := by
          by_contra digit
          rw [Bool.not_eq_false] at digit
          cases part <;> first | (cases complete; done) | simp [NumberPart.next?, digit] at next noZero
        exact ⟨digit, fun same => begun '.' same rfl, fun same => begun 'e' same rfl, fun same => begun 'E' same rfl⟩

private theorem ne_of_isDigit {d c : Char} (digit : Numeral.isDigit d = true) (other : Numeral.isDigit c = false) :
    d ≠ c := by
  rintro rfl
  rw [other] at digit
  cases digit

theorem beginToken_digit {d : Char} (digit : Numeral.isDigit d = true) (nonzero : d ≠ '0') :
    ScanState.between.step d = ⟨[], some (.number .whole [d])⟩ := by
  have other : ∀ c, Numeral.isDigit c = false → d ≠ c := fun c => ne_of_isDigit digit
  have noBlank : isBlank d = false := by
    simp [isBlank, other ' ' rfl, other '\t' rfl, other '\n' rfl, other '\r' rfl]
  simp only [ScanState.step, beginToken, noBlank, Bool.false_eq_true, ↓reduceIte, digit, nonzero, other '[' rfl,
    other ']' rfl, other '\x7b' rfl, other '\x7d' rfl, other ',' rfl, other ':' rfl, other '"' rfl, other 'n' rfl,
    other 't' rfl, other 'f' rfl, other '-' rfl]

/-- A number is one token, if nothing goes on with it. -/
theorem scan_numeral {w rest : List Char} (numeral : IsNumeral w) (ends : EndsNumber rest) :
    scan .between (w ++ rest) = .number (numberOf w) :: scan .between rest := by
  rcases isNumeral_iff.mp numeral with accepts | ⟨body, accepts, rfl⟩
  · cases w with
    | nil => cases accepts
    | cons c w =>
      obtain ⟨part, first, accepts⟩ := accepts
      have step : ScanState.between.step c = ⟨[], some (.number part [c])⟩ := by
        simp only [NumberPart.next?] at first
        split at first
        · next zero =>
          cases first
          rw [zero]
          rfl
        · next nonzero =>
          split at first
          · next digit =>
            cases first
            exact beginToken_digit digit nonzero
          · cases first
      rw [List.cons_append, scan_step step, List.nil_append, scan_accepts accepts [c] ends]
      rfl
  · have step : ScanState.between.step '-' = ⟨[], some (.number .sign ['-'])⟩ := rfl
    rw [List.cons_append, scan_step step, List.nil_append, scan_accepts accepts ['-'] ends]
    rfl

/-! ### Texts and their tokens -/

/-- What a character can begin: nothing, a whole token, a string, a word, a number, or no token at all. -/
inductive Begins (c : Char) : Step → Prop where
  | blank : isBlank c = true → Begins c ⟨[], some .between⟩
  | mark {t : Token} : TokenForm t [c] → Begins c ⟨[t], some .between⟩
  | quote : c = '"' → Begins c ⟨[], some (.string .start)⟩
  | word {t : Token} {more : List Char} : more ≠ [] → TokenForm t (c :: more) → Begins c ⟨[], some (.word more t)⟩
  | number {part : NumberPart} : (∀ w, part.Accepts w → IsNumeral (c :: w)) → Begins c ⟨[], some (.number part [c])⟩
  | stray : Begins c ⟨[.stray], none⟩

theorem begins (c : Char) : Begins c (beginToken c) := by
  unfold beginToken
  refine iteInduction (fun blank => .blank blank) fun _ => ?_
  refine iteInduction (fun same => .mark (same ▸ .openArray)) fun _ => ?_
  refine iteInduction (fun same => .mark (same ▸ .closeArray)) fun _ => ?_
  refine iteInduction (fun same => .mark (same ▸ .openObject)) fun _ => ?_
  refine iteInduction (fun same => .mark (same ▸ .closeObject)) fun _ => ?_
  refine iteInduction (fun same => .mark (same ▸ .comma)) fun _ => ?_
  refine iteInduction (fun same => .mark (same ▸ .colon)) fun _ => ?_
  refine iteInduction (fun same => .quote same) fun _ => ?_
  refine iteInduction (fun same => .word (by simp) (same ▸ .null)) fun _ => ?_
  refine iteInduction (fun same => .word (by simp) (same ▸ .on)) fun _ => ?_
  refine iteInduction (fun same => .word (by simp) (same ▸ .off)) fun _ => ?_
  refine iteInduction (fun minus => .number fun w accepts => ?_) fun _ => ?_
  · exact isNumeral_iff.mpr (.inr ⟨w, accepts, by rw [minus]⟩)
  refine iteInduction (fun zero => .number fun w accepts => ?_) fun nonzero => ?_
  · exact isNumeral_iff.mpr (.inl ⟨.zero, by simp [NumberPart.next?, zero], accepts⟩)
  refine iteInduction (fun digit => .number fun w accepts => ?_) fun _ => .stray
  exact isNumeral_iff.mpr (.inl ⟨.whole, by simp [NumberPart.next?, nonzero, digit], accepts⟩)

/-- Where a word does not break off, the rest of it stands there. -/
theorem word_of_sound {t : Token} {more text : List Char} (due : more ≠ [])
    (sound : AllSound (scan (.word more t) text)) : ∃ rest, text = more ++ rest := by
  induction more generalizing text with
  | nil => exact absurd rfl due
  | cons e more ih =>
    cases text with
    | nil => exact absurd sound (not_allSound rfl)
    | cons c text =>
      by_cases same : c = e
      · subst same
        cases more with
        | nil => exact ⟨text, rfl⟩
        | cons e' more =>
          have step : (ScanState.word (c :: e' :: more) t).step c = ⟨[], some (.word (e' :: more) t)⟩ := by
            simp [ScanState.step, stepWord]
          rw [scan_step step, List.nil_append] at sound
          obtain ⟨rest, rfl⟩ := ih (by simp) sound
          exact ⟨rest, rfl⟩
      · have stop : (ScanState.word (e :: more) t).step c = ⟨[.brokenWord .malformed], none⟩ := by
          cases more <;> simp [ScanState.step, stepWord, same]
        rw [scan_stop stop] at sound
        exact absurd sound (not_allSound rfl)

theorem scan_tokenForm {t : Token} {w : List Char} (form : TokenForm t w) (rest : List Char) :
    scan .between (w ++ rest) = t :: scan .between rest := by
  cases form with
  | string forms =>
    have opens : ScanState.between.step '"' = ⟨[], some (.string ⟨.plain, [], false⟩)⟩ := rfl
    rw [List.cons_append, List.cons_append, List.append_assoc, scan_step opens, List.nil_append, scan_charForms forms,
      List.cons_append, List.nil_append, scan_endString]
    simp
  | _ => rfl

theorem TokenForm.isSound {t : Token} {w : List Char} (form : TokenForm t w) : t.isSound = true := by
  cases form <;> rfl

/-- The tokens of a text are those that it denotes, and none of them is broken. -/
theorem tokens_of_denotes {ts : List Token} {text : List Char} (denotes : Denotes ts text) :
    tokens text = ts ∧ AllSound ts := by
  unfold tokens
  induction denotes with
  | nil => exact ⟨rfl, nofun⟩
  | blank isBlank _ ih =>
    rw [scan_blank isBlank]
    exact ih
  | token form _ ih =>
    rw [scan_tokenForm form, ih.1]
    exact ⟨rfl, allSound_cons.mpr ⟨form.isSound, ih.2⟩⟩
  | number numeral value ends _ ih =>
    rw [scan_numeral numeral ends, value, ih.1]
    exact ⟨rfl, allSound_cons.mpr ⟨rfl, ih.2⟩⟩

theorem TokenForm.ne_nil {t : Token} {w : List Char} (form : TokenForm t w) : w ≠ [] := by
  cases form <;> simp

/-- What a text begins with: a blank, or a token in one of its forms. -/
theorem opening_of_sound {c : Char} {text : List Char} (sound : AllSound (scan .between (c :: text))) :
    isBlank c = true ∨ (∃ t w rest, TokenForm t w ∧ c :: text = w ++ rest) ∨
      ∃ n w rest, IsNumeral w ∧ numberOf w = .readable n ∧ w ≠ [] ∧ EndsNumber rest ∧ c :: text = w ++ rest := by
  have begun := begins c
  generalize made : beginToken c = step at begun
  have first : ScanState.between.step c = step := made
  cases begun with
  | blank isBlank => exact .inl isBlank
  | @mark t form => exact .inr (.inl ⟨t, [c], text, form, rfl⟩)
  | quote same =>
    subst same
    rw [scan_step first, List.nil_append] at sound
    obtain ⟨cs, w, rest, forms, rfl⟩ := charForms_of_sound (Nat.le_refl _) sound
    exact .inr (.inl ⟨_, _, rest, .string forms, by simp⟩)
  | @word t more due form =>
    rw [scan_step first, List.nil_append] at sound
    obtain ⟨rest, rfl⟩ := word_of_sound due sound
    exact .inr (.inl ⟨t, c :: more, rest, form, rfl⟩)
  | @number part numeral =>
    rw [scan_step first, List.nil_append] at sound
    obtain ⟨more, rest, rfl, accepts, ends⟩ := accepts_of_sound sound
    rw [scan_accepts accepts _ ends, List.reverse_singleton, List.singleton_append, allSound_cons] at sound
    cases value : numberOf (c :: more) with
    | readable n => exact .inr (.inr ⟨n, c :: more, rest, numeral more accepts, value, by simp, ends, rfl⟩)
    | garbled =>
      rw [value] at sound
      cases sound.1
  | stray =>
    rw [scan_stop first] at sound
    exact absurd sound (not_allSound rfl)

/-- A text in which nothing is broken or garbled denotes its tokens. -/
theorem denotes_of_sound {text : List Char} (sound : AllSound (tokens text)) : Denotes (tokens text) text := by
  -- The induction is on the length of the text, of which each token takes at least one character.
  generalize length : text.length = n
  induction n using Nat.strongRecOn generalizing text with
  | ind n ih =>
    have shorter : ∀ {w rest : List Char}, w ≠ [] → text = w ++ rest → AllSound (scan .between rest) →
        Denotes (scan .between rest) rest := by
      rintro w rest nonempty rfl soundRest
      have positive := List.length_pos_iff.mpr nonempty
      rw [List.length_append] at length
      exact ih rest.length (by omega) soundRest rfl
    unfold tokens at sound ⊢
    cases text with
    | nil => exact .nil
    | cons c text =>
      obtain isBlank | ⟨t, w, rest, form, same⟩ | ⟨n, w, rest, numeral, value, nonempty, ends, same⟩ :=
        opening_of_sound sound
      · rw [scan_blank isBlank] at sound ⊢
        exact .blank isBlank (shorter (List.cons_ne_nil c []) rfl sound)
      · rw [same, scan_tokenForm form] at sound ⊢
        exact .token form (shorter form.ne_nil same (allSound_cons.mp sound).2)
      · rw [same, scan_numeral numeral ends, value] at sound ⊢
        exact .number numeral value ends (shorter nonempty same (allSound_cons.mp sound).2)

/-- A text denotes tokens if and only if these are the tokens that the scanner finds, and none of them is broken. -/
theorem denotes_iff {ts : List Token} {text : List Char} : Denotes ts text ↔ tokens text = ts ∧ AllSound ts := by
  refine ⟨tokens_of_denotes, ?_⟩
  rintro ⟨rfl, sound⟩
  exact denotes_of_sound sound

end PatchPanel.Json
