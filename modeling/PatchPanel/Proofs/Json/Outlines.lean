import PatchPanel.Proofs.Json.Reading

/-!
Which texts have the outline of a tree. An outline holds all tokens that it was made of (`Due.takes_of_step`), each flaw
standing for a token that is none, so that a text whose outline has no flaw has the tokens of a tree and denotes them
(`outline_eq_iff`).
-/
namespace PatchPanel.Json

/-! ### The tokens in an outline -/

/-- The token, or a stray character in the place of one that stands for nothing. -/
def Token.orStray (t : Token) : Token := if t.isSound then t else .stray

def keyToken : Option String → Token
  | some key => .string (.readable key)
  | none => .stray

mutual

/-- The tokens of an outline. A flaw counts as a stray character. -/
def Outline.tokens : Outline → List Token
  | .null => [.null]
  | .bool b => [.bool b]
  | .number n => [.number (.readable n)]
  | .string s => [.string (.readable s)]
  | .array items => .openArray :: items.tokens []
  | .object members => .openObject :: members.tokens []
  | .garbled | .flawed _ => [.stray]

/-- The tokens of items with `before` in front of the first, and the closing bracket. -/
def Items.tokens (before : List Token) : Items → List Token
  | .close => [.closeArray]
  | .cut _ => [.stray]
  | .item first rest => before ++ first.tokens ++ rest.tokens [.comma]

/-- The tokens of members with `before` in front of the first, and the closing brace. -/
def Members.tokens (before : List Token) : Members → List Token
  | .close => [.closeObject]
  | .cut _ _ | .noKey _ => [.stray]
  | .member key value rest => before ++ keyToken key :: .colon :: value.tokens ++ rest.tokens [.comma]

end

/-- The comma behind the last of some items or members. -/
def commaAfter {α : Type} : List α → List Token
  | [] => []
  | _ :: _ => [.comma]

/-- The tokens of the items of a reversed list. -/
def itemTokens : List Outline → List Token
  | [] => []
  | item :: before => itemTokens before ++ commaAfter before ++ item.tokens

/-- The tokens of the members of a reversed list. -/
def memberTokens : List (Option String × Outline) → List Token
  | [] => []
  | (key, value) :: before => memberTokens before ++ commaAfter before ++ keyToken key :: .colon :: value.tokens

theorem Items.tokens_prepend (reversed : List Outline) (rest : Items) :
    (Items.prepend reversed rest).tokens [] = itemTokens reversed ++ rest.tokens (commaAfter reversed) := by
  unfold Items.prepend
  induction reversed generalizing rest with
  | nil => rfl
  | cons item before ih =>
    rw [List.foldl_cons, ih]
    simp [Items.tokens, itemTokens, commaAfter]

theorem Members.tokens_prepend (reversed : List (Option String × Outline)) (rest : Members) :
    (Members.prepend reversed rest).tokens [] = memberTokens reversed ++ rest.tokens (commaAfter reversed) := by
  unfold Members.prepend
  induction reversed generalizing rest with
  | nil => rfl
  | cons m before ih =>
    obtain ⟨key, value⟩ := m
    rw [List.foldl_cons, ih]
    simp [Members.tokens, memberTokens, commaAfter]

/-- The tokens in front of a value that is due in a frame. -/
def Frame.tokens : Frame → List Token
  | .array reversed => .openArray :: (itemTokens reversed ++ commaAfter reversed)
  | .object reversed key => .openObject :: (memberTokens reversed ++ commaAfter reversed ++ [keyToken key, .colon])

/-- The tokens in front of a value that is due in frames, of which the innermost is the first. -/
def framesTokens : List Frame → List Token
  | [] => []
  | frame :: outer => framesTokens outer ++ frame.tokens

/-- The tokens that were read before something is due. -/
def Due.tokens : Due → List Token
  | .value frames => framesTokens frames
  | .firstItem frames => framesTokens frames ++ [.openArray]
  | .afterItem reversed frames => framesTokens frames ++ .openArray :: itemTokens reversed
  | .firstKey frames => framesTokens frames ++ [.openObject]
  | .key reversed frames => framesTokens frames ++ .openObject :: (memberTokens reversed ++ commaAfter reversed)
  | .colon reversed name frames =>
    framesTokens frames ++ .openObject :: (memberTokens reversed ++ commaAfter reversed ++ [keyToken name])
  | .afterMember reversed frames => framesTokens frames ++ .openObject :: memberTokens reversed
  | .nothing root => root.tokens

/-- A comma is due only behind something. -/
def Due.IsProper : Due → Prop
  | .afterItem reversed _ => reversed ≠ []
  | .key reversed _ | .afterMember reversed _ => reversed ≠ []
  | .value _ | .firstItem _ | .firstKey _ | .colon _ _ _ | .nothing _ => True

/-! ### Steps -/

/-- What is due next has one token more, and a comma is due only behind something. -/
def Due.Takes (due : Due) (t : Token) (next : Due) : Prop := next.IsProper ∧ next.tokens = due.tokens ++ [t.orStray]

section
variable {due next : Due} {t : Token} {frames : List Frame}

theorem Due.takes_complete {value : Outline} (same : framesTokens frames ++ value.tokens = due.tokens ++ [t.orStray]) :
    due.Takes t (complete value frames) := by
  rw [Due.Takes, ← same]
  cases frames with
  | nil => exact ⟨trivial, rfl⟩
  | cons frame outer =>
    cases frame <;> simp [complete, Due.IsProper, Due.tokens, framesTokens, Frame.tokens, itemTokens, memberTokens]

theorem Due.takes_beginValue (step : beginValue frames t = .ok next) : (Due.value frames).Takes t next := by
  cases t with
  | openArray | openObject =>
    cases step
    exact ⟨trivial, rfl⟩
  | null | bool b =>
    cases step
    exact takes_complete rfl
  | number n =>
    cases step
    cases n <;> exact takes_complete rfl
  | string s =>
    cases step
    cases s <;> exact takes_complete rfl
  | _ => cases step

theorem Due.takes_beginKey {reversed : List (Option String × Outline)} (step : beginKey reversed frames t = .ok next) :
    (Due.key reversed frames).Takes t next := by
  cases t with
  | string s =>
    cases step
    cases s <;> exact ⟨trivial, by simp [Due.tokens, keyToken, Lexeme.key, Token.orStray, Token.isSound]⟩
  | _ => cases step

/-- Each step takes up one token. -/
theorem Due.takes_of_step (proper : due.IsProper) (step : due.step t = .ok next) : due.Takes t next := by
  cases due with
  | value frames => exact takes_beginValue step
  | firstItem frames =>
    simp only [Due.step] at step
    split at step
    · cases step
      exact takes_complete (by simp [Due.tokens, Outline.tokens, Items.tokens, Token.orStray, Token.isSound])
    · exact takes_beginValue step
  | afterItem reversed frames =>
    obtain ⟨item, before, rfl⟩ := List.exists_cons_of_ne_nil proper
    simp only [Due.step] at step
    split at step
    · cases step
      exact ⟨trivial, by simp [Due.tokens, framesTokens, Frame.tokens, commaAfter, Token.orStray, Token.isSound]⟩
    · cases step
      refine takes_complete ?_
      simp [Due.tokens, Outline.tokens, Items.tokens_prepend, Items.tokens, Token.orStray, Token.isSound]
    · cases step
  | firstKey frames =>
    simp only [Due.step] at step
    split at step
    · cases step
      exact takes_complete (by simp [Due.tokens, Outline.tokens, Members.tokens, Token.orStray, Token.isSound])
    · exact takes_beginKey step
  | key reversed frames => exact takes_beginKey step
  | colon reversed name frames =>
    simp only [Due.step] at step
    split at step
    · cases step
      exact ⟨trivial, by simp [Due.tokens, framesTokens, Frame.tokens, Token.orStray, Token.isSound]⟩
    · cases step
  | afterMember reversed frames =>
    obtain ⟨m, before, rfl⟩ := List.exists_cons_of_ne_nil proper
    simp only [Due.step] at step
    split at step
    · cases step
      exact ⟨proper, by simp [Due.tokens, commaAfter, Token.orStray, Token.isSound]⟩
    · cases step
      refine takes_complete ?_
      simp [Due.tokens, Outline.tokens, Members.tokens_prepend, Members.tokens, Token.orStray, Token.isSound]
    · cases step
  | nothing root => cases step

end

/-! ### Flaws -/

/-- The outline has a mark where the text breaks off, or something stands behind its value. -/
def TextOutline.IsFlawed (o : TextOutline) : Prop := o.trailing = true ∨ .stray ∈ o.root.tokens

theorem breakOff_isFlawed {value : Outline} (flawed : .stray ∈ value.tokens) (frames : List Frame) :
    (breakOff value frames).IsFlawed := by
  refine .inr ?_
  unfold breakOff sealAll
  induction frames generalizing value with
  | nil => exact flawed
  | cons frame outer ih =>
    refine ih ?_
    cases frame <;>
      simp [Frame.seal, Outline.tokens, Items.tokens_prepend, Members.tokens_prepend, itemTokens, memberTokens, flawed]

theorem beginValue_isFlawed {frames : List Frame} {t : Token} {o : TextOutline}
    (step : beginValue frames t = .error o) : o.IsFlawed := by
  cases t <;> cases step <;> exact breakOff_isFlawed (by simp [Outline.tokens]) frames

theorem beginKey_isFlawed {reversed : List (Option String × Outline)} {frames : List Frame} {t : Token}
    {o : TextOutline} (step : beginKey reversed frames t = .error o) : o.IsFlawed := by
  cases t <;> cases step <;>
    exact breakOff_isFlawed (by simp [Outline.tokens, Members.tokens_prepend, Members.tokens]) frames

theorem Due.step_isFlawed {due : Due} {t : Token} {o : TextOutline} (step : due.step t = .error o) : o.IsFlawed := by
  cases due with
  | value frames => exact beginValue_isFlawed step
  | firstItem frames =>
    simp only [Due.step] at step
    split at step
    · cases step
    · exact beginValue_isFlawed step
  | firstKey frames =>
    simp only [Due.step] at step
    split at step
    · cases step
    · exact beginKey_isFlawed step
  | key reversed frames => exact beginKey_isFlawed step
  | nothing root =>
    cases step
    exact .inl rfl
  | afterItem reversed frames =>
    simp only [Due.step] at step
    split at step <;> cases step
    exact breakOff_isFlawed (by simp [Outline.tokens, Items.tokens_prepend, Items.tokens]) frames
  | afterMember reversed frames =>
    simp only [Due.step] at step
    split at step <;> cases step
    exact breakOff_isFlawed (by simp [Outline.tokens, Members.tokens_prepend, Members.tokens]) frames
  | colon reversed name frames =>
    simp only [Due.step] at step
    split at step <;> cases step
    exact breakOff_isFlawed (by simp [Outline.tokens]) _

/-- A text that ends is whole only where nothing is due. -/
theorem Due.finish_isFlawed {due : Due} (open' : ∀ root, due ≠ .nothing root) : due.finish.IsFlawed := by
  cases due with
  | nothing root => exact absurd rfl (open' root)
  | _ =>
    exact breakOff_isFlawed (by
      simp [Outline.tokens, Items.tokens_prepend, Members.tokens_prepend, Items.tokens, Members.tokens]) _

/-- The outline of a whole text has all tokens of the text. -/
theorem outlineFrom_tokens {due : Due} {ts : List Token} (proper : due.IsProper)
    (whole : ¬ (outlineFrom due ts).IsFlawed) :
    (outlineFrom due ts).root.tokens = due.tokens ++ ts.map Token.orStray := by
  induction ts generalizing due with
  | nil =>
    cases due with
    | nothing root => simp [outlineFrom, Due.finish, Due.tokens]
    | _ => exact absurd (Due.finish_isFlawed (by simp)) whole
  | cons t ts ih =>
    rw [outlineFrom] at whole ⊢
    cases step : due.step t with
    | error o =>
      rw [step] at whole
      exact absurd (Due.step_isFlawed step) whole
    | ok next =>
      obtain ⟨isProper, same⟩ := Due.takes_of_step proper step
      rw [step] at whole
      simp [ih isProper whole, same]

/-! ### Texts of trees -/

mutual

theorem toOutline_tokens : ∀ j : Json, j.toOutline.tokens = tokensOf j
  | .null | .bool _ | .number _ | .string _ => rfl
  | .array [] | .object [] => rfl
  | .array (item :: items) => by
    simp [toOutline, toItems, Outline.tokens, Items.tokens, tokensOf, toOutline_tokens item, toItems_tokens items]
  | .object ((key, value) :: members) => by
    simp [toOutline, toMembers, Outline.tokens, Members.tokens, tokensOf, keyToken, toOutline_tokens value,
      toMembers_tokens members]

theorem toItems_tokens : ∀ items : List Json, (toItems items).tokens [.comma] = tokensOfItems items
  | [] => rfl
  | item :: items => by
    simp [toItems, Items.tokens, tokensOfItems, toOutline_tokens item, toItems_tokens items]

theorem toMembers_tokens : ∀ members : List (String × Json),
    (toMembers members).tokens [.comma] = tokensOfMembers members
  | [] => rfl
  | (key, value) :: members => by
    simp [toMembers, Members.tokens, tokensOfMembers, keyToken, toOutline_tokens value, toMembers_tokens members]

end

mutual

theorem allSound_tokensOf : ∀ j : Json, AllSound (tokensOf j)
  | .null | .bool _ | .number _ | .string _ | .array [] | .object [] => by simp [tokensOf, AllSound, Token.isSound]
  | .array (item :: items) => by
    simp [tokensOf, allSound_cons, allSound_append, Token.isSound, allSound_tokensOf item, allSound_tokensOfItems items]
  | .object ((key, value) :: members) => by
    simp [tokensOf, allSound_cons, allSound_append, Token.isSound, allSound_tokensOf value,
      allSound_tokensOfMembers members]

theorem allSound_tokensOfItems : ∀ items : List Json, AllSound (tokensOfItems items)
  | [] => by simp [tokensOfItems, AllSound, Token.isSound]
  | item :: items => by
    simp [tokensOfItems, allSound_cons, allSound_append, Token.isSound, allSound_tokensOf item,
      allSound_tokensOfItems items]

theorem allSound_tokensOfMembers : ∀ members : List (String × Json), AllSound (tokensOfMembers members)
  | [] => by simp [tokensOfMembers, AllSound, Token.isSound]
  | (key, value) :: members => by
    simp [tokensOfMembers, allSound_cons, allSound_append, Token.isSound, allSound_tokensOf value,
      allSound_tokensOfMembers members]

end

/-- A text has the outline of a tree if and only if it denotes the tree. -/
theorem outline_eq_iff {j : Json} {text : List Char} :
    outline text = ⟨j.toOutline, false⟩ ↔ Denotes (tokensOf j) text := by
  refine ⟨fun same => ?_, outline_of_denotes⟩
  have sound := allSound_tokensOf j
  have whole : ¬ (outline text).IsFlawed := by
    rw [same, TextOutline.IsFlawed, toOutline_tokens]
    rintro (trailing | stray)
    · cases trailing
    · cases sound _ stray
  have proper : (Due.value []).IsProper := trivial
  have all : tokensOf j = (tokens text).map Token.orStray := by
    have taken := outlineFrom_tokens proper whole
    have root : (outlineFrom (.value []) (tokens text)).root = j.toOutline := congrArg TextOutline.root same
    rw [root, toOutline_tokens] at taken
    exact taken
  -- A token that stands for nothing would be a stray character in the tree.
  have soundText : AllSound (tokens text) := by
    intro t member
    have inTree := sound t.orStray (all ▸ List.mem_map_of_mem member)
    by_contra broken
    rw [Token.orStray, if_neg broken] at inTree
    cases inTree
  have same : (tokens text).map Token.orStray = (tokens text).map id :=
    List.map_congr_left fun t member => if_pos (soundText t member)
  rw [all, same, List.map_id]
  exact denotes_of_sound soundText

end PatchPanel.Json
