import Mathlib.Tactic.IntervalCases
import PatchPanel.Text.Numeral

/-!
Numerals as texts. The number that a row of digits stands for is written with the same digits if the row has no
leading zero (`toDigits_ofDigits`), and what is written for a number stands for it (`ofDigits_toDigits`).
-/
namespace PatchPanel.Numeral

/-! ### Decimal digits -/

theorem isDigit_eq (c : Char) : isDigit c = c.isDigit := by
  rw [isDigit, Bool.decide_and]
  rfl

theorem ofDigits_eq {text : List Char} (digits : ∀ c ∈ text, isDigit c = true) (start : Nat) :
    ofDigits start text = Nat.ofDigitChars 10 text start := by
  induction text generalizing start with
  | nil => rfl
  | cons c text ih =>
    obtain ⟨first, rest⟩ := List.forall_mem_cons.mp digits
    have value : start * 10 + digitValue c = 10 * start + (c.toNat - '0'.toNat) := by
      rw [digitValue, if_pos first]
      omega
    rw [Nat.ofDigitChars_cons, ← ih rest, ← value]
    rfl

theorem isDigit_of_mem_toDigits {n : Nat} {c : Char} (member : c ∈ Nat.toDigits 10 n) : isDigit c = true := by
  rw [isDigit_eq]
  exact Nat.isDigit_of_mem_toDigits (by decide) (by decide) member

/-- A written number is read back. -/
theorem ofDigits_toDigits (n : Nat) : ofDigits 0 (Nat.toDigits 10 n) = n := by
  rw [ofDigits_eq (fun c member => isDigit_of_mem_toDigits member)]
  exact Nat.ofDigitChars_ten_toDigits

/-- Only zero is written with a leading zero. -/
theorem toDigits_head {n : Nat} (positive : 0 < n) : ∃ d ds, Nat.toDigits 10 n = d :: ds ∧ d ≠ '0' := by
  induction n using Nat.strongRecOn with
  | ind n ih =>
    by_cases small : n < 10
    · refine ⟨n.digitChar, [], Nat.toDigits_of_lt_base small, fun zero => ?_⟩
      rw [Nat.digitChar_eq_zero] at zero
      omega
    · obtain ⟨d, ds, digits, first⟩ := ih (n / 10) (by omega) (by omega)
      refine ⟨d, ds ++ [(n % 10).digitChar], ?_, first⟩
      rw [Nat.toDigits_of_base_le (by decide) (by omega), digits]
      rfl

theorem not_mem_toDigits {x : Char} (other : isDigit x = false) (n : Nat) : x ∉ Nat.toDigits 10 n := by
  intro member
  rw [isDigit_of_mem_toDigits member] at other
  cases other

theorem digitValue_eq {c : Char} (digit : isDigit c = true) :
    (48 ≤ c.toNat ∧ c.toNat ≤ 57) ∧ digitValue c = c.toNat - 48 :=
  ⟨of_decide_eq_true digit, if_pos digit⟩

theorem digitValue_lt (c : Char) : digitValue c < 10 := by
  by_cases digit : isDigit c = true
  · obtain ⟨bounds, value⟩ := digitValue_eq digit
    omega
  · rw [digitValue, if_neg digit]
    decide

/-- A digit is the one that is written for its value. -/
theorem digitChar_digitValue {c : Char} (digit : isDigit c = true) : (digitValue c).digitChar = c := by
  obtain ⟨bounds, value⟩ := digitValue_eq digit
  apply Char.toNat_inj.mp
  rw [Nat.toNat_digitChar_of_lt_ten (digitValue_lt c), value]
  omega

/-- Digits behind a positive number are read as written. -/
theorem toDigits_append {start : Nat} (positive : 0 < start) {text : List Char}
    (digits : ∀ c ∈ text, isDigit c = true) :
    Nat.toDigits 10 start ++ text = Nat.toDigits 10 (ofDigits start text) := by
  induction text generalizing start with
  | nil => exact List.append_nil _
  | cons c text ih =>
    obtain ⟨first, rest⟩ := List.forall_mem_cons.mp digits
    have small := digitValue_lt c
    have longer : Nat.toDigits 10 start ++ [c] = Nat.toDigits 10 (start * 10 + digitValue c) := by
      have joined := Nat.toDigits_append_toDigits (by decide) positive small
      rwa [Nat.toDigits_of_lt_base small, digitChar_digitValue first, Nat.mul_comm] at joined
    calc Nat.toDigits 10 start ++ c :: text
      _ = Nat.toDigits 10 start ++ [c] ++ text := by simp
      _ = Nat.toDigits 10 (ofDigits (start * 10 + digitValue c) text) := by rw [longer, ih (by omega) rest]

/-- Digits without a leading zero are what is written for their number. -/
theorem toDigits_ofDigits {c : Char} {text : List Char} (digits : ∀ d ∈ c :: text, isDigit d = true)
    (first : c ≠ '0') : Nat.toDigits 10 (ofDigits 0 (c :: text)) = c :: text := by
  obtain ⟨digit, rest⟩ := List.forall_mem_cons.mp digits
  have written : Nat.toDigits 10 (digitValue c) = [c] := by
    rw [Nat.toDigits_of_lt_base (digitValue_lt c), digitChar_digitValue digit]
  have positive : 0 < digitValue c := by
    refine Nat.pos_of_ne_zero fun zero => first ?_
    rw [← digitChar_digitValue digit, zero]
    rfl
  have all := toDigits_append positive rest
  rw [written] at all
  have start : ofDigits 0 (c :: text) = ofDigits (digitValue c) text := by simp [ofDigits]
  rw [start, ← all]
  rfl

theorem decimal?_eq_some_iff {text : List Char} {n : Nat} :
    decimal? text = some n ↔ text ≠ [] ∧ (∀ c ∈ text, isDigit c = true) ∧ ofDigits 0 text = n := by
  simp [decimal?, and_assoc]

/-- The digits are what stands without a plus sign, with or without one before it. -/
theorem dropPlus_eq_iff {text digits : List Char} (free : digits.head? ≠ some '+') :
    dropPlus text = digits ↔ text = digits ∨ text = '+' :: digits := by
  unfold dropPlus
  split
  · next rest =>
    constructor
    · rintro rfl
      exact .inr rfl
    · rintro (rfl | same)
      · exact absurd rfl free
      · exact (List.cons.inj same).2
  · next other =>
    constructor
    · intro same
      exact .inl same
    · rintro (same | plus)
      · exact same
      · exact absurd plus (other digits)

/-! ### Hexadecimal digits -/

/-- The digits of numerals in base sixteen. -/
def hexDigits : List Char := "0123456789abcdefABCDEF".toList

/-- The three ranges of hexadecimal digits, with their values. -/
theorem ranges_of_hexValue? {c : Char} {n : Nat} (digit : hexValue? c = some n) :
    (48 ≤ c.toNat ∧ c.toNat ≤ 57 ∧ n = c.toNat - 48) ∨ (97 ≤ c.toNat ∧ c.toNat ≤ 102 ∧ n = c.toNat - 97 + 10) ∨
      (65 ≤ c.toNat ∧ c.toNat ≤ 70 ∧ n = c.toNat - 65 + 10) := by
  unfold hexValue? at digit
  split at digit
  · next decimal =>
    cases digit
    obtain ⟨low, high⟩ := of_decide_eq_true decimal
    exact .inl ⟨low, high, rfl⟩
  · split at digit
    · next lower =>
      cases digit
      exact .inr (.inl ⟨lower.1, lower.2, rfl⟩)
    · split at digit
      · next upper =>
        cases digit
        exact .inr (.inr ⟨upper.1, upper.2, rfl⟩)
      · cases digit

theorem isHexDigit_iff {c : Char} : isHexDigit c = true ↔ c ∈ hexDigits := by
  constructor
  · intro digit
    obtain ⟨value, valued⟩ := Option.isSome_iff_exists.mp digit
    have range := ranges_of_hexValue? valued
    rw [← Char.ofNat_toNat c]
    generalize c.toNat = n at range
    rcases range with ⟨low, high, -⟩ | ⟨low, high, -⟩ | ⟨low, high, -⟩
    · interval_cases n <;> decide
    · interval_cases n <;> decide
    · interval_cases n <;> decide
  · have every : hexDigits.all isHexDigit = true := by decide
    exact List.all_eq_true.mp every c

theorem not_mem_of_hexDigits {x : Char} (other : x ∉ hexDigits) {text : List Char} (hex : ∀ c ∈ text, c ∈ hexDigits) :
    x ∉ text :=
  fun member => other (hex x member)

end PatchPanel.Numeral
