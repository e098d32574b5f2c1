import Mathlib.Data.String.Basic

/-!
The order of names. Strings are compared code point by code point, and their UTF-8 forms byte by byte, which is
the same order (`lt_iff_utf8Bytes_lt`).
-/
namespace PatchPanel

/-- The bytes of the UTF-8 form of a string. -/
def utf8Bytes (s : String) : List UInt8 := s.toUTF8.data.toList

theorem utf8Bytes_eq (s : String) : utf8Bytes s = s.toList.flatMap String.utf8EncodeChar := by
  rw [utf8Bytes, String.toUTF8, ← String.utf8Encode_toList]
  simp [List.utf8Encode]

section
variable {m n : Nat}

private theorem byte_lt_iff (ofM : m < 256) (ofN : n < 256) : UInt8.ofNat m < UInt8.ofNat n ↔ m < n := by
  rw [UInt8.lt_iff_toNat_lt, UInt8.toNat_ofNat_of_lt' ofM, UInt8.toNat_ofNat_of_lt' ofN]

private theorem byte_eq_iff (ofM : m < 256) (ofN : n < 256) : UInt8.ofNat m = UInt8.ofNat n ↔ m = n := by
  rw [← UInt8.toNat_inj, UInt8.toNat_ofNat_of_lt' ofM, UInt8.toNat_ofNat_of_lt' ofN]

/-- Two numbers are in the order of their digits to the base 64, the highest digit first. -/
private theorem digits_of_lt (less : m < n) :
    m / 262144 < n / 262144 ∨ m / 262144 = n / 262144 ∧
      (m / 4096 % 64 < n / 4096 % 64 ∨ m / 4096 % 64 = n / 4096 % 64 ∧
        (m / 64 % 64 < n / 64 % 64 ∨ m / 64 % 64 = n / 64 % 64 ∧ m % 64 < n % 64)) := by
  omega

private theorem lead_digit (small : m < 0x110000) : m / 262144 % 8 = m / 262144 := by
  omega

end

/-- The form of the smaller of two code points has the smaller byte where the forms first differ, so nothing
    behind them matters. -/
theorem utf8EncodeChar_lt {c d : Char} (less : c < d) (more others : List UInt8) :
    String.utf8EncodeChar c ++ more < String.utf8EncodeChar d ++ others := by
  have below : c.val.toNat < d.val.toNat := less
  have last : d.val.toNat < 0x110000 := d.valid.elim (fun h => by omega) (fun h => h.2)
  unfold String.utf8EncodeChar
  generalize c.val.toNat = m at *
  generalize d.val.toNat = n at *
  have digits := digits_of_lt below
  have leadM : m / 262144 % 8 = m / 262144 := lead_digit (by omega)
  have leadN : n / 262144 % 8 = n / 262144 := lead_digit last
  -- One case for each pair of lengths. A longer form has the greater first byte; forms of one length differ first
  -- where the digits do.
  simp only
  split_ifs
  all_goals
    simp (disch := omega) only [List.cons_append, List.nil_append, List.cons_lt_cons_iff, byte_lt_iff, byte_eq_iff,
      leadM, leadN]
    omega

private theorem flatMap_lt : ∀ {s t : List Char}, s < t →
    s.flatMap String.utf8EncodeChar < t.flatMap String.utf8EncodeChar := by
  intro s
  induction s with
  | nil =>
    intro t less
    cases t with
    | nil => exact absurd less (List.not_lt_nil _)
    | cons d t =>
      obtain ⟨byte, more, form⟩ := List.exists_cons_of_ne_nil (String.utf8EncodeChar_ne_nil (c := d))
      rw [List.flatMap_cons, form]
      exact List.nil_lt_cons _ _
  | cons c s ih =>
    intro t less
    cases t with
    | nil => exact absurd less (List.not_lt_nil _)
    | cons d t =>
      rw [List.flatMap_cons, List.flatMap_cons]
      rcases List.cons_lt_cons_iff.mp less with here | ⟨rfl, later⟩
      · exact utf8EncodeChar_lt here _ _
      · exact List.append_left_lt (ih later)

/-- Strings are in the order of their UTF-8 bytes. -/
theorem lt_iff_utf8Bytes_lt {s t : String} : s < t ↔ utf8Bytes s < utf8Bytes t := by
  have forward : ∀ {s t : String}, s < t → utf8Bytes s < utf8Bytes t := by
    intro s t less
    rw [utf8Bytes_eq, utf8Bytes_eq]
    exact flatMap_lt (String.lt_iff_toList_lt.mp less)
  refine ⟨forward, fun less => ?_⟩
  rcases lt_trichotomy s t with before | rfl | after
  · exact before
  · exact absurd less (List.lt_irrefl _)
  · exact absurd less (List.lt_asymm (forward after))

end PatchPanel
