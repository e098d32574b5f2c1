import PatchPanel.OpenFlow.Build
import PatchPanel.Proofs.Index
import PatchPanel.Proofs.Json.Reading

/-!
Requests that can be built. A request restores itself from its written form (`Request.restores`), and
one whose tags are in range, that has an input and an output and asks for no MPLS yields rules under
every version (`Request.Buildable.build`).
-/
namespace PatchPanel

/-- A number that can be used as a VLAN id. -/
def IsVlanId (id : UInt16) : Prop := 1 ≤ id ∧ id ≤ maxVlanId

/-! ### Reading requests -/

namespace Request

theorem checkVlanId_ok_iff {field : String} {given : Option UInt16} :
    checkVlanId field given = .ok () ↔ ∀ id, given = some id → IsVlanId id := by
  cases given with
  | none => simp [checkVlanId]
  | some id =>
    by_cases range : 1 ≤ id ∧ id ≤ maxVlanId
    · simp [checkVlanId, IsVlanId, range]
    · simp [checkVlanId, IsVlanId, range]

theorem checkMplsLabel_ok_iff {field : String} {given : Option UInt32} :
    checkMplsLabel field given = .ok () ↔ ∀ label, given = some label → label ≤ maxMplsLabel := by
  cases given with
  | none => simp [checkMplsLabel]
  | some label =>
    by_cases range : label ≤ maxMplsLabel
    · simp [checkMplsLabel, range]
    · simp [checkMplsLabel, range]

/-- A request is accepted if its VLAN ids and its MPLS labels are in range. -/
theorem check_ok_iff {r : Request} :
    r.check = .ok () ↔
      (∀ id, r.vlanVid = some id → IsVlanId id) ∧ (∀ id, r.pushVlan = some id → IsVlanId id) ∧
      (∀ id, r.setVlan = some id → IsVlanId id) ∧
      (∀ label, r.mplsLabel = some label → label ≤ maxMplsLabel) ∧
      (∀ label, r.pushMpls = some label → label ≤ maxMplsLabel) := by
  simp only [check, check_bind_eq_ok_iff, checkVlanId_ok_iff, checkMplsLabel_ok_iff]

open Json (Codec Field)

private theorem restores_word16 (name : String) (value : Option UInt16) :
    (Field.optional name .word16).Restores value :=
  Field.restores_optional (fun n _ => Codec.restores_word16 n) nofun

private theorem restores_word32 (name : String) (value : Option UInt32) :
    (Field.optional name .word32).Restores value :=
  Field.restores_optional (fun n _ => Codec.restores_word32 n) nofun

private theorem restores_string (name : String) (value : Option String) :
    (Field.optional name .string).Restores value :=
  Field.restores_optional (fun s _ => Codec.restores_string s) nofun

private theorem restores_ports (name : String) (value : Option (List UInt32)) :
    (Field.optional name (.list .word32)).Restores value :=
  Field.restores_optional (fun _ _ => Codec.restores_list fun n _ => Codec.restores_word32 n) nofun

/-- Every request is read back from the tree that it is written as. -/
theorem restores (r : Request) : codec.Restores r := by
  apply Codec.restores_record (by decide) rfl
  exact ⟨Field.restores_required (Codec.restores_word64 r.dpid), restores_word16 _ _, restores_word32 _ _,
    restores_word32 _ _, restores_ports _ _, restores_string _ _, restores_string _ _, restores_word16 _ _,
    restores_word32 _ _, restores_word16 _ _, restores_word16 _ _, Field.restores_switch _ _, restores_word32 _ _,
    Field.restores_switch _ _, trivial⟩

/-- A text that spells a request, with any blanks, is read as the request if its tags are in range. -/
theorem ofText_of_spells {r : Request} {text : List Char} (inRange : r.check = .ok ())
    (spelled : Json.Spells (Json.tokensOf (codec.write r)) text) : ofText text = .ok r := by
  rw [ofText, r.restores.decode spelled]
  simp [Except.mapError, inRange]

/-- The texts that a request is written as: without blanks, or indented at some level. -/
def IsText (r : Request) (text : List Char) : Prop :=
  text = Json.encode codec r ∨ ∃ level, text = (codec.write r).prettyAt level

theorem IsText.spells {r : Request} {text : List Char} (written : r.IsText text) :
    Json.Spells (Json.tokensOf (codec.write r)) text := by
  rcases written with rfl | ⟨level, rfl⟩
  · exact Json.spells_compact r.restores.integers
  · exact Json.spells_pretty r.restores.integers level

/-- The rules of a request body under a version. -/
def rulesOfBody (version : Version) (body : List Char) : Except BuildFault (List Rule) := do
  let r ← (ofText body).mapError .request
  build version r

end Request

/-! ### Building rules -/

/-- The step asks for MPLS, which the first version does not have. -/
def Step.isMpls : Step → Bool
  | .mplsLabel _ | .pushMpls _ | .popMpls => true
  | _ => false

theorem Draft.apply_of_supported (d : Draft) {step : Step} (supported : step.isMpls = false) :
    ∃ after, d.apply step = .ok after := by
  unfold apply
  cases d.version with
  | v10 => cases step <;> first | exact ⟨_, rfl⟩ | cases supported
  | v12 => exact ⟨_, rfl⟩
  | v13 => exact ⟨_, rfl⟩

theorem Draft.applyAll_of_supported (d : Draft) {steps : List Step} (supported : ∀ step ∈ steps, step.isMpls = false) :
    ∃ after, d.applyAll steps = .ok after := by
  induction steps generalizing d with
  | nil => exact ⟨d, rfl⟩
  | cons step steps ih =>
    obtain ⟨first, others⟩ := List.forall_mem_cons.mp supported
    obtain ⟨next, applied⟩ := d.apply_of_supported first
    rw [applyAll, applied]
    exact ih next others

/-- A request without MPLS fields asks for no step that the first version does not have. -/
theorem Request.steps_supported {r : Request} (noMpls : r.mplsLabel = none ∧ r.pushMpls = none ∧ r.popMpls = false)
    (inPort : UInt32) : ∀ step ∈ r.matchSteps inPort ++ r.tagSteps, step.isMpls = false := by
  obtain ⟨noLabel, noPush, noPop⟩ := noMpls
  intro step member
  simp only [matchSteps, tagSteps, noLabel, noPush, noPop, Option.map_none, Option.toList_none, List.append_nil,
    Bool.false_eq_true, ↓reduceIte, List.mem_append, Option.mem_toList, Option.map_eq_some_iff,
    List.mem_singleton] at member
  rcases member with ((((⟨_, _, rfl⟩ | rfl) | ⟨_, _, rfl⟩) | ⟨_, _, rfl⟩) | ⟨_, _, rfl⟩) |
    (⟨_, _, rfl⟩ | popped) | ⟨_, _, rfl⟩
  case inr.inl.inr =>
    split at popped
    · rw [List.mem_singleton.mp popped]
      rfl
    · cases popped
  all_goals rfl

theorem Request.outputSteps_supported (r : Request) : ∀ step ∈ r.outputSteps, step.isMpls = false := by
  intro step member
  obtain ⟨port, _, rfl⟩ := List.mem_map.mp member
  rfl

/-- What makes a request one that yields rules under every version. -/
structure Request.Buildable (r : Request) : Prop where
  inPort : r.inPort.isSome
  outputs : r.outputPorts ≠ []
  vlanVid : ∀ id, r.vlanVid = some id → IsVlanId id
  pushVlan : ∀ id, r.pushVlan = some id → IsVlanId id
  setVlan : ∀ id, r.setVlan = some id → IsVlanId id
  noMpls : r.mplsLabel = none ∧ r.pushMpls = none ∧ r.popMpls = false

namespace Request.Buildable
variable {r : Request}

theorem check (buildable : r.Buildable) : r.check = .ok () := by
  obtain ⟨noLabel, noPush, _⟩ := buildable.noMpls
  refine check_ok_iff.mpr ⟨buildable.vlanVid, buildable.pushVlan, buildable.setVlan, ?_, ?_⟩
  · simp [noLabel]
  · simp [noPush]

/-- Such a request yields rules under every version. -/
theorem build (buildable : r.Buildable) (version : Version) : ∃ rules, PatchPanel.build version r = .ok rules := by
  obtain ⟨inPort, hasInPort⟩ := Option.isSome_iff_exists.mp buildable.inPort
  obtain ⟨drafted, draftMade⟩ := (Draft.start version).applyAll_of_supported (r.steps_supported buildable.noMpls inPort)
  obtain ⟨finished, outputsMade⟩ := drafted.applyAll_of_supported r.outputSteps_supported
  refine ⟨finished.rules, ?_⟩
  simp [PatchPanel.build, buildable.check, hasInPort, draft, draftMade, buildable.outputs, outputsMade, Except.mapError]

/-- Such a request is read from every text that spells it. -/
theorem ofText (buildable : r.Buildable) {text : List Char}
    (spelled : Json.Spells (Json.tokensOf (codec.write r)) text) : Request.ofText text = .ok r :=
  ofText_of_spells buildable.check spelled

theorem rulesOfBody (buildable : r.Buildable) {text : List Char} (written : r.IsText text) (version : Version) :
    Request.rulesOfBody version text = PatchPanel.build version r := by
  rw [Request.rulesOfBody, buildable.ofText written.spells]
  rfl

end Request.Buildable
end PatchPanel
