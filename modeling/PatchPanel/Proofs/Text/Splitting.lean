import PatchPanel.Text.Split

/-!
Texts cut at separators. The pieces of a text are the texts without separators that give it when they are joined
(`pieces_eq_iff`). A text is cut at the first of its separators (`cut?_eq_some_iff`), and at the first double one
(`cutDouble?_append`), which leaves an empty piece (`nil_mem_pieces_of_cutDouble?`).
-/
namespace PatchPanel.Text
variable {x : Char}

/-! ### Pieces -/

theorem pieces_eq_splitOn (x : Char) (text : List Char) : pieces x text = text.splitOn x := by
  induction text with
  | nil => rfl
  | cons c text ih =>
    rw [pieces, ih, List.splitOn_cons_eq_if_modifyHead]
    by_cases here : c = x
    · simp [here]
    · obtain ⟨first, rest, split⟩ := List.exists_cons_of_ne_nil (List.splitOn_ne_nil x text)
      simp [here, split]

theorem pieces_ne_nil (x : Char) (text : List Char) : pieces x text ≠ [] := by
  rw [pieces_eq_splitOn]
  exact List.splitOn_ne_nil x text

theorem pieces_cons_of_ne {c : Char} (other : c ≠ x) (text : List Char) :
    ∃ piece rest, pieces x text = piece :: rest ∧ pieces x (c :: text) = (c :: piece) :: rest := by
  obtain ⟨piece, rest, split⟩ := List.exists_cons_of_ne_nil (pieces_ne_nil x text)
  refine ⟨piece, rest, split, ?_⟩
  rw [pieces, if_neg other, split]

theorem pieces_cons_self (x : Char) (text : List Char) : pieces x (x :: text) = [] :: pieces x text := by
  rw [pieces, if_pos rfl]

theorem pieces_append_cons (before later : List Char) :
    pieces x (before ++ x :: later) = pieces x before ++ pieces x later := by
  rw [pieces_eq_splitOn, pieces_eq_splitOn, pieces_eq_splitOn, List.splitOn_append_cons_self]

/-- There is no separator inside a piece. -/
theorem not_mem_of_mem_pieces {text piece : List Char} (member : piece ∈ pieces x text) : x ∉ piece := by
  induction text generalizing piece with
  | nil =>
    obtain rfl := List.mem_singleton.mp member
    exact List.not_mem_nil
  | cons c text ih =>
    by_cases here : c = x
    · subst here
      rw [pieces_cons_self] at member
      rcases List.mem_cons.mp member with rfl | later
      · exact List.not_mem_nil
      · exact ih later
    · obtain ⟨first, rest, split, longer⟩ := pieces_cons_of_ne here text
      rw [longer] at member
      rcases List.mem_cons.mp member with rfl | later
      · have inside : x ∉ first := ih (by rw [split]; exact List.mem_cons_self)
        simp [inside, Ne.symm here]
      · exact ih (by rw [split]; exact List.mem_cons_of_mem first later)

/-- The pieces of a text are the texts without separators that give it when they are joined. -/
theorem pieces_eq_iff {text : List Char} {ls : List (List Char)} :
    pieces x text = ls ↔ ls ≠ [] ∧ (∀ l ∈ ls, x ∉ l) ∧ text = [x].intercalate ls := by
  constructor
  · rintro rfl
    refine ⟨pieces_ne_nil x text, fun l => not_mem_of_mem_pieces, ?_⟩
    rw [pieces_eq_splitOn, List.intercalate_splitOn]
  · rintro ⟨some, free, rfl⟩
    rw [pieces_eq_splitOn, List.splitOn_intercalate x free some]

/-- The pieces of a text are of some form exactly if it is joined of pieces of this form. -/
theorem pieces_iff_joined {Form : List (List Char) → Prop} (free : ∀ ls, Form ls → ls ≠ [] ∧ ∀ l ∈ ls, x ∉ l)
    {text : List Char} : Form (pieces x text) ↔ ∃ ls, Form ls ∧ text = [x].intercalate ls := by
  constructor
  · intro form
    exact ⟨pieces x text, form, (pieces_eq_iff.mp rfl).2.2⟩
  · rintro ⟨ls, form, joined⟩
    obtain ⟨some, noSeparator⟩ := free ls form
    rwa [pieces_eq_iff.mpr ⟨some, noSeparator, joined⟩]

/-- A joined text has nothing but separators and what its pieces have. -/
theorem mem_intercalate {c : Char} {ls : List (List Char)} (member : c ∈ [x].intercalate ls) :
    c = x ∨ ∃ l ∈ ls, c ∈ l := by
  induction ls with
  | nil => simp at member
  | cons l ls ih =>
    cases ls with
    | nil =>
      rw [List.intercalate_singleton] at member
      exact .inr ⟨l, List.mem_cons_self, member⟩
    | cons next ls =>
      rw [List.intercalate_cons_cons, List.append_assoc] at member
      rcases List.mem_append.mp member with here | further
      · exact .inr ⟨l, List.mem_cons_self, here⟩
      · rcases List.mem_append.mp further with separator | later
        · exact .inl (List.mem_singleton.mp separator)
        · rcases ih later with separator | ⟨piece, inside, here⟩
          · exact .inl separator
          · exact .inr ⟨piece, List.mem_cons_of_mem l inside, here⟩

/-! ### The first separator -/

theorem cut?_eq_none_iff {text : List Char} : cut? x text = none ↔ x ∉ text := by
  induction text with
  | nil => simp [cut?]
  | cons c text ih =>
    by_cases here : c = x
    · simp [cut?, here]
    · simp [cut?, here, ih, Ne.symm here]

theorem cut?_eq_some_iff {text before later : List Char} :
    cut? x text = some (before, later) ↔ text = before ++ x :: later ∧ x ∉ before := by
  induction text generalizing before later with
  | nil => simp [cut?]
  | cons c text ih =>
    by_cases here : c = x
    · subst here
      cases before with
      | nil => simp [cut?]
      | cons d before =>
        simp only [cut?, ↓reduceIte, Option.some.injEq, Prod.mk.injEq, List.cons_append, List.cons.injEq, List.mem_cons]
        constructor
        · rintro ⟨⟨⟩, -⟩
        · rintro ⟨⟨rfl, -⟩, free⟩
          exact absurd (.inl rfl) free
    · cases before with
      | nil => simp [cut?, here]
      | cons d before =>
        simp only [cut?, here, ↓reduceIte, Option.map_eq_some_iff, Prod.exists, Prod.mk.injEq, List.cons.injEq, ih,
          List.cons_append, List.mem_cons, not_or]
        constructor
        · rintro ⟨a, b, ⟨rfl, free⟩, ⟨rfl, rfl⟩, rfl⟩
          exact ⟨⟨rfl, rfl⟩, Ne.symm here, free⟩
        · rintro ⟨⟨rfl, rfl⟩, -, free⟩
          exact ⟨before, later, ⟨rfl, free⟩, ⟨rfl, rfl⟩, rfl⟩

/-! ### The first double separator -/

/-- A text is cut where a separator stands twice. -/
theorem eq_of_cutDouble? {text before later : List Char} (cut : cutDouble? x text = some (before, later)) :
    text = before ++ x :: x :: later := by
  induction text generalizing before with
  | nil => cases cut
  | cons c text ih =>
    cases text with
    | nil => cases cut
    | cons d text =>
      rw [cutDouble?] at cut
      split at cut
      · next double =>
        obtain ⟨rfl, rfl⟩ := double
        cases cut
        rfl
      · obtain ⟨⟨a, b⟩, further, same⟩ := Option.map_eq_some_iff.mp cut
        obtain ⟨rfl, rfl⟩ := Prod.mk.inj same
        rw [ih further]
        rfl

/-- A double separator leaves an empty piece. -/
theorem nil_mem_pieces_of_cutDouble? {text : List Char} {parts : List Char × List Char}
    (cut : cutDouble? x text = some parts) : [] ∈ pieces x text := by
  rw [eq_of_cutDouble? cut, pieces_append_cons, pieces_cons_self]
  simp

/-- A text is cut at a double separator if no piece before it is empty, but for the first. -/
theorem cutDouble?_append {before : List Char} (filled : [] ∉ (pieces x before).tail) (later : List Char) :
    cutDouble? x (before ++ x :: x :: later) = some (before, later) := by
  induction before with
  | nil => simp [cutDouble?]
  | cons c before ih =>
    have rest : [] ∉ (pieces x before).tail ∧ ¬ (c = x ∧ (before ++ x :: x :: later).head? = some x) := by
      by_cases here : c = x
      · subst here
        rw [pieces_cons_self, List.tail_cons] at filled
        refine ⟨fun later => filled (List.mem_of_mem_tail later), fun double => filled ?_⟩
        -- What follows a separator and begins with one has an empty first piece.
        cases before with
        | nil => exact List.mem_cons_self
        | cons d before =>
          obtain rfl : d = c := by simpa using double.2
          rw [pieces_cons_self]
          exact List.mem_cons_self
      · obtain ⟨first, others, split, longer⟩ := pieces_cons_of_ne here before
        rw [longer, List.tail_cons] at filled
        rw [split]
        exact ⟨filled, fun double => here double.1⟩
    obtain ⟨d, more, follows⟩ : ∃ d more, before ++ x :: x :: later = d :: more :=
      List.exists_cons_of_ne_nil (by simp)
    have further := ih rest.1
    have single : ¬ (c = x ∧ d = x) := by simpa [follows] using rest.2
    rw [List.cons_append, follows, cutDouble?, if_neg single, ← follows, further]
    rfl

end PatchPanel.Text
