import PatchPanel.Json.Token

/-!
The form of numbers in a JSON text: a sign, a whole part without leading zeros, a fraction and an exponent
(`IsNumeral`). The scanner goes from part to part of a number, and the texts that take it to a complete one are those
of this form (`isNumeral_iff`). Those that stand for natural numbers are the digits of these
(`numberOf_eq_natural_iff`).
-/
namespace PatchPanel.Json

/-! ### The form of numbers -/

def AllDigits (ds : List Char) : Prop := ∀ c ∈ ds, Numeral.isDigit c = true

/-- A row of at least one digit. -/
def IsDigits (ds : List Char) : Prop := ds ≠ [] ∧ AllDigits ds

/-- A whole part: zero, or digits of which the first is not zero. -/
def IsWhole (w : List Char) : Prop := w = ['0'] ∨ IsDigits w ∧ w.head? ≠ some '0'

/-- A fraction, which may be missing: a point and digits. -/
def IsFraction (w : List Char) : Prop := w = [] ∨ ∃ ds, IsDigits ds ∧ w = '.' :: ds

/-- Digits behind an optional sign. -/
def IsSigned (w : List Char) : Prop :=
  ∃ sign ds, (sign = [] ∨ sign = ['+'] ∨ sign = ['-']) ∧ IsDigits ds ∧ w = sign ++ ds

/-- An exponent, which may be missing: a letter and digits behind an optional sign. -/
def IsExponent (w : List Char) : Prop :=
  w = [] ∨ ∃ mark power, (mark = 'e' ∨ mark = 'E') ∧ IsSigned power ∧ w = mark :: power

/-- A number without a sign. -/
def IsUnsigned (w : List Char) : Prop :=
  ∃ whole fraction exponent, IsWhole whole ∧ IsFraction fraction ∧ IsExponent exponent ∧
    w = whole ++ fraction ++ exponent

/-- A number in a JSON text. -/
def IsNumeral (w : List Char) : Prop := IsUnsigned w ∨ ∃ body, IsUnsigned body ∧ w = '-' :: body

/-! ### Numbers character by character -/

section
variable {c : Char} {w : List Char}

theorem isDigits_cons : IsDigits (c :: w) ↔ Numeral.isDigit c = true ∧ AllDigits w := by
  simp [IsDigits, AllDigits]

theorem not_isDigits_nil : ¬ IsDigits [] := fun digits => digits.1 rfl

theorem isSigned_cons : IsSigned (c :: w) ↔ IsDigits (c :: w) ∨ (c = '+' ∨ c = '-') ∧ IsDigits w := by
  constructor
  · rintro ⟨sign, ds, rfl | rfl | rfl, digits, same⟩
    · exact .inl (same ▸ digits)
    · cases same
      exact .inr ⟨.inl rfl, digits⟩
    · cases same
      exact .inr ⟨.inr rfl, digits⟩
  · rintro (digits | ⟨rfl | rfl, digits⟩)
    · exact ⟨[], _, .inl rfl, digits, rfl⟩
    · exact ⟨['+'], w, .inr (.inl rfl), digits, rfl⟩
    · exact ⟨['-'], w, .inr (.inr rfl), digits, rfl⟩

theorem not_isSigned_nil : ¬ IsSigned [] := by
  rintro ⟨sign, ds, -, digits, same⟩
  rw [(List.append_eq_nil_iff.mp same.symm).2] at digits
  exact not_isDigits_nil digits

theorem isExponent_cons : IsExponent (c :: w) ↔ (c = 'e' ∨ c = 'E') ∧ IsSigned w := by
  constructor
  · rintro (absent | ⟨mark, power, letter, signed, same⟩)
    · cases absent
    · cases same
      exact ⟨letter, signed⟩
  · exact fun ⟨letter, signed⟩ => .inr ⟨c, w, letter, signed, rfl⟩

/-- Any digits and then a text of a form. -/
def DigitsThen (Form : List Char → Prop) (w : List Char) : Prop :=
  ∃ ds rest, AllDigits ds ∧ Form rest ∧ w = ds ++ rest

theorem digitsThen_nil {Form : List Char → Prop} : DigitsThen Form [] ↔ Form [] := by
  constructor
  · rintro ⟨ds, rest, -, form, same⟩
    rwa [(List.append_eq_nil_iff.mp same.symm).2] at form
  · exact fun form => ⟨[], [], nofun, form, rfl⟩

theorem digitsThen_cons {Form : List Char → Prop} :
    DigitsThen Form (c :: w) ↔ Numeral.isDigit c = true ∧ DigitsThen Form w ∨ Form (c :: w) := by
  constructor
  · rintro ⟨_ | ⟨d, ds⟩, rest, digits, form, same⟩
    · exact .inr (same ▸ form)
    · obtain ⟨rfl, rfl⟩ := List.cons.inj same
      obtain ⟨first, others⟩ := List.forall_mem_cons.mp digits
      exact .inl ⟨first, ds, rest, others, form, rfl⟩
  · rintro (⟨first, ds, rest, others, form, rfl⟩ | form)
    · exact ⟨c :: ds, rest, List.forall_mem_cons.mpr ⟨first, others⟩, form, rfl⟩
    · exact ⟨[], _, nofun, form, rfl⟩

/-- What may follow the whole part: a fraction and an exponent, either of which may be missing. -/
def IsTail (w : List Char) : Prop :=
  ∃ fraction exponent, IsFraction fraction ∧ IsExponent exponent ∧ w = fraction ++ exponent

theorem isTail_nil : IsTail [] := ⟨[], [], .inl rfl, .inl rfl, rfl⟩

theorem isTail_cons : IsTail (c :: w) ↔
    (c = '.' ∧ ∃ d rest, Numeral.isDigit d = true ∧ DigitsThen IsExponent rest ∧ w = d :: rest) ∨
      IsExponent (c :: w) := by
  constructor
  · rintro ⟨fraction, exponent, rfl | ⟨ds, digits, rfl⟩, scaled, same⟩
    · exact .inr (same ▸ scaled)
    · cases ds with
      | nil => exact absurd digits not_isDigits_nil
      | cons d ds =>
        obtain ⟨rfl, rfl⟩ := List.cons.inj same
        obtain ⟨first, others⟩ := isDigits_cons.mp digits
        exact .inl ⟨rfl, d, ds ++ exponent, first, ⟨ds, exponent, others, scaled, rfl⟩, rfl⟩
  · rintro (⟨rfl, d, _, first, ⟨ds, exponent, others, scaled, rfl⟩, rfl⟩ | scaled)
    · exact ⟨'.' :: d :: ds, exponent, .inr ⟨d :: ds, isDigits_cons.mpr ⟨first, others⟩, rfl⟩, scaled, rfl⟩
    · exact ⟨[], _, .inl rfl, scaled, rfl⟩

theorem not_isUnsigned_nil : ¬ IsUnsigned [] := by
  rintro ⟨whole, fraction, exponent, rfl | ⟨digits, -⟩, -, -, same⟩
  · cases same
  · have empty := (List.append_eq_nil_iff.mp (List.append_eq_nil_iff.mp same.symm).1).1
    exact digits.1 empty

theorem isUnsigned_cons : IsUnsigned (c :: w) ↔
    c = '0' ∧ IsTail w ∨ (Numeral.isDigit c = true ∧ c ≠ '0') ∧ DigitsThen IsTail w := by
  constructor
  · rintro ⟨whole, fraction, exponent, rfl | ⟨digits, noZero⟩, ofFraction, scaled, same⟩
    · obtain ⟨rfl, rfl⟩ := List.cons.inj same
      exact .inl ⟨rfl, fraction, exponent, ofFraction, scaled, rfl⟩
    · cases whole with
      | nil => exact absurd digits not_isDigits_nil
      | cons d ds =>
        obtain ⟨rfl, rfl⟩ := List.cons.inj same
        obtain ⟨first, others⟩ := isDigits_cons.mp digits
        refine .inr ⟨⟨first, fun zero => noZero (congrArg some zero)⟩, ds, fraction ++ exponent, others, ?_, ?_⟩
        · exact ⟨fraction, exponent, ofFraction, scaled, rfl⟩
        · exact List.append_assoc ..
  · rintro (⟨rfl, fraction, exponent, ofFraction, scaled, rfl⟩ | ⟨⟨first, noZero⟩, ds, _, others, tail, rfl⟩)
    · exact ⟨['0'], fraction, exponent, .inl rfl, ofFraction, scaled, rfl⟩
    · obtain ⟨fraction, exponent, ofFraction, scaled, rfl⟩ := tail
      refine ⟨c :: ds, fraction, exponent, .inr ⟨isDigits_cons.mpr ⟨first, others⟩, ?_⟩, ofFraction, scaled, ?_⟩
      · exact fun zero => noZero (Option.some.inj zero)
      · exact congrArg (c :: ·) (List.append_assoc ..).symm

end

/-! ### What the scanner takes for a number -/

namespace NumberPart
variable {w : List Char}

/-- The text takes the scanner from a part of a number to a complete one. -/
def Accepts : NumberPart → List Char → Prop
  | part, [] => part.isComplete = true
  | part, c :: w => ∃ next, part.next? c = some next ∧ Accepts next w

theorem accepts_exponent : Accepts .exponent w ↔ AllDigits w := by
  induction w with
  | nil => simp [Accepts, isComplete, AllDigits]
  | cons c w ih =>
    by_cases digit : Numeral.isDigit c = true <;> simp_all [Accepts, next?, AllDigits]

theorem accepts_markSign : Accepts .markSign w ↔ IsDigits w := by
  cases w with
  | nil => simp [Accepts, isComplete, not_isDigits_nil]
  | cons c w =>
    by_cases digit : Numeral.isDigit c = true <;> simp [Accepts, next?, isDigits_cons, digit, accepts_exponent]

theorem accepts_mark : Accepts .mark w ↔ IsSigned w := by
  cases w with
  | nil => simp [Accepts, isComplete, not_isSigned_nil]
  | cons c w =>
    rw [isSigned_cons, isDigits_cons]
    by_cases digit : Numeral.isDigit c = true
    · have noSign : ¬ (c = '+' ∨ c = '-') := by rintro (rfl | rfl) <;> cases digit
      simp [Accepts, next?, digit, noSign, accepts_exponent]
    · by_cases sign : c = '+' ∨ c = '-' <;> simp [Accepts, next?, digit, sign, accepts_markSign]

private theorem not_isExponent_of_isDigit {c : Char} (digit : Numeral.isDigit c = true) : ¬ IsExponent (c :: w) := by
  rw [isExponent_cons]
  rintro ⟨rfl | rfl, -⟩ <;> cases digit

theorem accepts_fraction : Accepts .fraction w ↔ DigitsThen IsExponent w := by
  induction w with
  | nil => simp [Accepts, isComplete, digitsThen_nil, IsExponent]
  | cons c w ih =>
    rw [digitsThen_cons]
    by_cases digit : Numeral.isDigit c = true
    · simp [Accepts, next?, digit, ih, not_isExponent_of_isDigit digit]
    · rw [isExponent_cons]
      by_cases mark : c = 'e' ∨ c = 'E' <;> simp [Accepts, next?, digit, mark, accepts_mark]

theorem accepts_zero : Accepts .zero w ↔ IsTail w := by
  cases w with
  | nil => simp [Accepts, isComplete, isTail_nil]
  | cons c w =>
    rw [isTail_cons, isExponent_cons]
    by_cases point : c = '.'
    · subst point
      cases w with
      | nil => simp [Accepts, next?, isComplete]
      | cons d w => by_cases digit : Numeral.isDigit d = true <;> simp [Accepts, next?, digit, accepts_fraction]
    · by_cases mark : c = 'e' ∨ c = 'E' <;> simp [Accepts, next?, point, mark, accepts_mark]

theorem accepts_whole : Accepts .whole w ↔ DigitsThen IsTail w := by
  induction w with
  | nil => simp [Accepts, isComplete, digitsThen_nil, isTail_nil]
  | cons c w ih =>
    rw [digitsThen_cons]
    by_cases digit : Numeral.isDigit c = true
    · have noTail : ¬ IsTail (c :: w) := by
        rw [isTail_cons]
        rintro (⟨rfl, -⟩ | scaled)
        · cases digit
        · exact not_isExponent_of_isDigit digit scaled
      simp [Accepts, next?, digit, ih, noTail]
    · rw [← accepts_zero]
      simp [Accepts, next?, digit]

theorem accepts_sign : Accepts .sign w ↔ IsUnsigned w := by
  cases w with
  | nil => simp [Accepts, isComplete, not_isUnsigned_nil]
  | cons c w =>
    rw [isUnsigned_cons]
    by_cases zero : c = '0'
    · simp [Accepts, next?, zero, accepts_zero]
    · by_cases digit : Numeral.isDigit c = true <;> simp [Accepts, next?, zero, digit, accepts_whole]

end NumberPart

/-- A number is what takes the scanner to a complete one, from the sign on or behind it. -/
theorem isNumeral_iff {w : List Char} :
    IsNumeral w ↔ NumberPart.Accepts .sign w ∨ ∃ body, NumberPart.Accepts .sign body ∧ w = '-' :: body := by
  simp only [IsNumeral, NumberPart.accepts_sign]

/-! ### Integers -/

private theorem binaryOf_ne_natural {negative : Bool} {w : List Char} {n : UInt64} :
    binaryOf negative w ≠ .readable (.natural n) := by
  unfold binaryOf
  simp only
  split <;> rintro ⟨⟩

/-- A text stands for a natural number if it has nothing but digits and the number is their value. -/
theorem numberOf_eq_natural_iff {w : List Char} {n : UInt64} :
    numberOf w = .readable (.natural n) ↔ AllDigits w ∧ Numeral.ofDigits 0 w = n.toNat := by
  have all : ∀ v : List Char, v.all Numeral.isDigit = true ↔ AllDigits v := fun _ => List.all_eq_true
  by_cases minus : ∃ body, w = '-' :: body
  · obtain ⟨body, rfl⟩ := minus
    have noDigits : ¬ AllDigits ('-' :: body) := fun digits => by cases digits '-' List.mem_cons_self
    simp only [numberOf, Bool.not_true, Bool.false_and, Bool.false_eq_true, ↓reduceIte, noDigits, false_and, iff_false]
    split
    · exact binaryOf_ne_natural
    · split
      · rintro ⟨⟩
      · exact binaryOf_ne_natural
  · have unsigned : ∀ body, w = '-' :: body → False := fun body same => minus ⟨body, same⟩
    rw [numberOf]
    · by_cases digits : AllDigits w
      · by_cases small : Numeral.ofDigits 0 w < UInt64.size
        · have value : UInt64.ofNat (Numeral.ofDigits 0 w) = n ↔ Numeral.ofDigits 0 w = n.toNat := by
            rw [← UInt64.toNat_inj, UInt64.toNat_ofNat_of_lt' small]
          simpa [(all w).mpr digits, digits, small] using value
        · have large : Numeral.ofDigits 0 w ≠ n.toNat := fun same => small (same ▸ n.toNat_lt)
          simpa [(all w).mpr digits, digits, small, large] using binaryOf_ne_natural
      · simpa [Bool.eq_false_iff.mpr (mt (all w).mp digits), digits] using binaryOf_ne_natural
    · exact unsigned

end PatchPanel.Json
