import PatchPanel.Proofs.Drafting
import Mathlib.Data.List.ReduceOption

/-!
Why requests are refused. A version has something against a step exactly if the step asks for MPLS and the version
is the first one, and steps fail with the fault of the first step that has one (`Draft.fault?_applyAll`). So all that
is to be said against a request is known beforehand (`Request.refusals`), and what a failed build reports is the
first of it (`Request.refused_first`).
-/
namespace PatchPanel

/-! ### Steps that fail -/

/-- What a version has against a step. -/
def Step.fault? (version : Version) (step : Step) : Option ControllerFault :=
  if version = .v10 ∧ step.isMpls = true then some (.unsupportedAction step.field version) else none

namespace Draft

theorem fault?_apply (d : Draft) (step : Step) : fault? (d.apply step) = step.fault? d.version := by
  unfold apply Step.fault?
  cases version : d.version with
  | v10 =>
    unfold applyLegacy
    rw [version]
    cases step <;> rfl
  | v12 => rfl
  | v13 => rfl

/-- Steps fail with the fault of the first of them that has one. -/
theorem fault?_applyAll (d : Draft) (steps : List Step) :
    fault? (d.applyAll steps) = steps.findSome? (Step.fault? d.version) := by
  induction steps generalizing d with
  | nil => rfl
  | cons step steps ih =>
    rw [applyAll, List.findSome?_cons, ← fault?_apply]
    cases applied : d.apply step with
    | error fault => rfl
    | ok next =>
      show fault? (next.applyAll steps) = _
      rw [ih, version_apply applied]
      rfl

end Draft

/-! ### Reasons to refuse a request -/

namespace Request

/-- A VLAN id that is out of range. -/
def badVlanId? (field : String) (given : Option UInt16) : Option BuildFault :=
  (given.filter fun id => ¬ (1 ≤ id ∧ id ≤ 4095)).map fun id => .request (.badVlanId field id)

/-- An MPLS label that is out of range. -/
def badMplsLabel? (field : String) (given : Option UInt32) : Option BuildFault :=
  (given.filter fun label => ¬ label ≤ 0xFFFFF).map fun label => .request (.badMplsLabel field label)

/-- A field that asks the first version for MPLS. -/
def noMpls? (version : Version) (field : String) (asked : Bool) : Option BuildFault :=
  if version = .v10 ∧ asked = true then some (.controller (.unsupportedAction field version)) else none

/-- All tags of a request that are out of range. -/
def badTags (r : Request) : List BuildFault :=
  [badVlanId? "vlan_vid" r.vlanVid, badVlanId? "push_vlan" r.pushVlan, badVlanId? "set_vlan" r.setVlan,
    badMplsLabel? "mpls_label" r.mplsLabel, badMplsLabel? "push_mpls" r.pushMpls].reduceOption

/-- All that is to be said against a request under a version, in the order in which it is looked for. -/
def refusals (version : Version) (r : Request) : List BuildFault :=
  r.badTags ++
    [if r.inPort = none then some (.request .noInPort) else none,
      noMpls? version "mpls_label" r.mplsLabel.isSome, noMpls? version "push_mpls" r.pushMpls.isSome,
      noMpls? version "pop_mpls" r.popMpls,
      if (r.outPorts = none ∨ r.outPorts = some []) ∧ r.outPort = none then some (.request .noOutPort)
        else none].reduceOption

theorem head?_reduceOption_cons {α : Type} (a : Option α) (as : List (Option α)) :
    (a :: as).reduceOption.head? = a.or as.reduceOption.head? := by
  cases a with
  | none => rw [List.reduceOption_cons_of_none, Option.none_or]
  | some a => rw [List.reduceOption_cons_of_some, List.head?_cons, Option.some_or]

theorem outputPorts_eq_nil_iff {r : Request} :
    r.outputPorts = [] ↔ (r.outPorts = none ∨ r.outPorts = some []) ∧ r.outPort = none := by
  unfold outputPorts
  rcases r.outPorts with _ | _ | _ <;> simp

theorem fault?_checkVlanId (field : String) (given : Option UInt16) :
    (fault? (checkVlanId field given)).map BuildFault.request = badVlanId? field given := by
  cases given with
  | none => rfl
  | some id =>
    show (fault? (if 1 ≤ id ∧ id ≤ 4095 then .ok () else .error (.badVlanId field id))).map BuildFault.request = _
    by_cases range : 1 ≤ id ∧ id ≤ 4095
    · rw [if_pos range, badVlanId?, Option.filter_some, if_neg (by simpa only [decide_not, range] using nofun)]
      rfl
    · rw [if_neg range, badVlanId?, Option.filter_some, if_pos (decide_eq_true range)]
      rfl

theorem fault?_checkMplsLabel (field : String) (given : Option UInt32) :
    (fault? (checkMplsLabel field given)).map BuildFault.request = badMplsLabel? field given := by
  cases given with
  | none => rfl
  | some label =>
    show (fault? (if label ≤ 0xFFFFF then .ok () else .error (.badMplsLabel field label))).map BuildFault.request = _
    by_cases range : label ≤ 0xFFFFF
    · rw [if_pos range, badMplsLabel?, Option.filter_some, if_neg (by simpa only [decide_not, range] using nofun)]
      rfl
    · rw [if_neg range, badMplsLabel?, Option.filter_some, if_pos (decide_eq_true range)]
      rfl

/-- A request is checked for tags out of range, of which the first is reported. -/
theorem fault?_check (r : Request) : (fault? r.check).map BuildFault.request = r.badTags.head? := by
  simp only [badTags, head?_reduceOption_cons, List.reduceOption_nil, List.head?_nil, Option.or_none,
    ← fault?_checkVlanId, ← fault?_checkMplsLabel, ← Option.map_or, check]
  rw [fault?_bind fun _ _ => fault?_bind fun _ _ => fault?_bind fun _ _ => fault?_bind fun _ _ => rfl]

/-- The first fault of the steps of a request is that of its first MPLS field. -/
theorem findSome?_steps (version : Version) (r : Request) (inPort : UInt32) :
    ((r.matchSteps inPort ++ r.tagSteps).findSome? (Step.fault? version)).map BuildFault.controller =
      (noMpls? version "mpls_label" r.mplsLabel.isSome).or ((noMpls? version "push_mpls" r.pushMpls.isSome).or
        (noMpls? version "pop_mpls" r.popMpls)) := by
  have given : ∀ {β : Type} (step : β → Step) (value : Option β),
      (value.map step).toList.findSome? (Step.fault? version) = value.bind fun b => (step b).fault? version := by
    intro β step value
    cases value with
    | none => rfl
    | some b => rw [Option.map_some, Option.toList_some, List.findSome?_singleton, Option.bind_some]
  have flag : ∀ (asked : Bool) (step : Step),
      (if asked then [step] else []).findSome? (Step.fault? version) = if asked then step.fault? version else none := by
    intro asked step
    cases asked with
    | false => rfl
    | true => exact List.findSome?_singleton
  simp only [matchSteps, tagSteps, List.findSome?_append, given, flag, List.findSome?_singleton]
  unfold Step.fault? Step.isMpls
  simp only [Step.field, Bool.false_eq_true, and_false, and_true, ↓reduceIte, Option.bind_fun_none, ite_self,
    Option.or_none, Option.none_or, Option.map_or, noMpls?]
  cases r.mplsLabel <;> cases r.pushMpls <;> cases r.popMpls <;> by_cases first : version = .v10 <;> simp [first]

/-- Once its conditions and changes are made, a request only fails for want of an output. -/
theorem fault?_outputs (r : Request) (d : Draft) :
    fault? (if r.outputPorts.isEmpty then .error (.request .noOutPort)
        else do
          let d ← (d.applyAll r.outputSteps).mapError BuildFault.controller
          return d.rules) =
      if (r.outPorts = none ∨ r.outPorts = some []) ∧ r.outPort = none then some (.request .noOutPort) else none := by
  simp only [List.isEmpty_iff, outputPorts_eq_nil_iff]
  split
  · rfl
  · obtain ⟨finished, made⟩ := d.applyAll_of_supported r.outputSteps_supported
    rw [made]
    rfl

/-- The fault of a build is the first of all that is to be said against the request. -/
theorem fault?_build (version : Version) (r : Request) : fault? (build version r) = (r.refusals version).head? := by
  unfold build
  rw [fault?_bind fun _ _ => rfl, fault?_mapError, fault?_check, refusals, List.head?_append]
  simp only [head?_reduceOption_cons, List.reduceOption_nil, List.head?_nil, Option.or_none]
  congr 1
  cases r.inPort with
  | none => rfl
  | some inPort =>
    rw [if_neg nofun, Option.none_or]
    show fault? (draft version r inPort >>= _) = _
    rw [fault?_bind fun d _ => fault?_outputs r d, draft, fault?_mapError, Draft.fault?_applyAll, Draft.start,
      findSome?_steps, Option.or_assoc, Option.or_assoc]

theorem map_filter_ne_none_iff {α β : Type} {given : Option α} {p : α → Bool} {f : α → β} :
    (given.filter p).map f ≠ none ↔ ∃ a, given = some a ∧ p a = true := by
  rw [Ne, Option.map_eq_none_iff, ← Ne, Option.ne_none_iff_exists']
  simp only [Option.filter_eq_some_iff]

theorem badVlanId?_ne_none_iff {field : String} {given : Option UInt16} :
    badVlanId? field given ≠ none ↔ ∃ id, given = some id ∧ ¬ (1 ≤ id ∧ id ≤ 4095) := by
  simp only [badVlanId?, map_filter_ne_none_iff, decide_eq_true_eq]

theorem badMplsLabel?_ne_none_iff {field : String} {given : Option UInt32} :
    badMplsLabel? field given ≠ none ↔ ∃ label, given = some label ∧ ¬ label ≤ 0xFFFFF := by
  simp only [badMplsLabel?, map_filter_ne_none_iff, decide_eq_true_eq]

theorem noMpls?_ne_none_iff {version : Version} {field : String} {asked : Bool} :
    noMpls? version field asked ≠ none ↔ version = .v10 ∧ asked = true := by
  simp [noMpls?]

theorem ite_ne_none_iff {β : Type} {c : Prop} [Decidable c] {b : β} : (if c then some b else none) ≠ none ↔ c := by
  split <;> simp [*]

/-- There is something to be said against a request if a tag is out of range, if it has no input or no output, or if
    it asks the first version for MPLS. -/
theorem refusals_ne_nil_iff {version : Version} {r : Request} :
    r.refusals version ≠ [] ↔
      (∃ id, (r.vlanVid = some id ∨ r.pushVlan = some id ∨ r.setVlan = some id) ∧ ¬ (1 ≤ id ∧ id ≤ 4095)) ∨
      (∃ label, (r.mplsLabel = some label ∨ r.pushMpls = some label) ∧ ¬ label ≤ 0xFFFFF) ∨
      r.inPort = none ∨
      (version = .v10 ∧ (r.mplsLabel ≠ none ∨ r.pushMpls ≠ none ∨ r.popMpls = true)) ∨
      (r.outPorts = none ∨ r.outPorts = some []) ∧ r.outPort = none := by
  have exists_iff : ∀ os : List (Option BuildFault), ¬ os.reduceOption = [] ↔ ∃ o ∈ os, o ≠ none := by
    intro os
    rw [List.reduceOption, List.filterMap_eq_nil_iff]
    simp
  rw [refusals, badTags, Ne, List.append_eq_nil_iff, not_and_or, exists_iff, exists_iff]
  simp only [List.exists_mem_cons_iff, badVlanId?_ne_none_iff, badMplsLabel?_ne_none_iff, noMpls?_ne_none_iff,
    Option.isSome_iff_ne_none, ite_ne_none_iff, or_and_right, exists_or, and_or_left, List.not_mem_nil, false_and,
    exists_false, or_false, or_assoc]

/-- A request whose tags are in range is not refused for a tag. -/
theorem build_ne_badTag {version : Version} {r : Request} (inRange : r.check = .ok ()) (field : String) :
    (∀ id, build version r ≠ .error (.request (.badVlanId field id))) ∧
      ∀ label, build version r ≠ .error (.request (.badMplsLabel field label)) := by
  have tags : r.badTags = [] := by
    rw [← List.head?_eq_none_iff, ← fault?_check, inRange]
    rfl
  have reported : ∀ fault, build version r = .error fault → fault ∈ r.refusals version := by
    intro fault fails
    rw [← fault?_eq_some_iff, fault?_build] at fails
    exact List.mem_of_head? fails
  constructor
  · intro id fails
    have member := reported _ fails
    rw [refusals, tags, List.nil_append, List.reduceOption_mem_iff] at member
    simp [noMpls?] at member
  · intro label fails
    have member := reported _ fails
    rw [refusals, tags, List.nil_append, List.reduceOption_mem_iff] at member
    simp [noMpls?] at member

/-- A build fails if and only if there is something to be said against the request, and with the first of it: tags out
    of range, no input, MPLS under the first version, no output. A negotiated version that is none of the three is
    refused for every request, and a request that was read from a text is not refused for a tag. -/
theorem refused_first (r : Request) :
    (∀ version fault, build version r = .error fault ↔ (r.refusals version).head? = some fault) ∧
    (∀ version, (∃ fault, build version r = .error fault) ↔
      (∃ id, (r.vlanVid = some id ∨ r.pushVlan = some id ∨ r.setVlan = some id) ∧ ¬ (1 ≤ id ∧ id ≤ 4095)) ∨
      (∃ label, (r.mplsLabel = some label ∨ r.pushMpls = some label) ∧ ¬ label ≤ 0xFFFFF) ∨
      r.inPort = none ∨
      (version = .v10 ∧ (r.mplsLabel ≠ none ∨ r.pushMpls ≠ none ∨ r.popMpls = true)) ∨
      (r.outPorts = none ∨ r.outPorts = some []) ∧ r.outPort = none) ∧
    (buildNegotiated 1 r = build .v10 r ∧ buildNegotiated 3 r = build .v12 r ∧ buildNegotiated 4 r = build .v13 r) ∧
    (∀ n, n ∉ [1, 3, 4] → buildNegotiated n r = .error (.controller (.unsupportedVersion n))) ∧
    ∀ body, ofText body = .ok r → ∀ version field,
      (∀ id, build version r ≠ .error (.request (.badVlanId field id))) ∧
        ∀ label, build version r ≠ .error (.request (.badMplsLabel field label)) := by
  have reported : ∀ version fault, build version r = .error fault ↔ (r.refusals version).head? = some fault := by
    intro version fault
    rw [← fault?_eq_some_iff, fault?_build]
  refine ⟨reported, fun version => ?_, ⟨rfl, rfl, rfl⟩, fun n other => ?_, fun body accepted version field => ?_⟩
  · rw [← refusals_ne_nil_iff, Ne, ← List.head?_eq_none_iff, ← Ne, Option.ne_none_iff_exists']
    exact exists_congr (reported version)
  · simp only [List.mem_cons, List.not_mem_nil, or_false, not_or] at other
    obtain ⟨first, second, third⟩ := other
    rw [buildNegotiated, negotiated, Version.ofWire?, if_neg first, if_neg second, if_neg third]
    rfl
  · rw [ofText, bind_eq_ok_iff] at accepted
    obtain ⟨read, _, checked⟩ := accepted
    obtain ⟨inRange, same⟩ := check_bind_eq_ok_iff.mp checked
    cases same
    exact build_ne_badTag inRange field

/-- A request for labelled frames without an output. -/
def labelRequest : Request :=
  { forward 7 1 0 0 with priority := none, outPort := none, mplsLabel := some 102 }

/-- The first version refuses the label before the missing output is found. -/
theorem refused_first_label :
    (2 : UInt8) ∉ [1, 3, 4] ∧
      ofText "\x7b\"dpid\":7,\"inport\":1,\"mpls_label\":102\x7d".toList = .ok labelRequest ∧
      build .v10 labelRequest = .error (.controller (.unsupportedAction "mpls_label" .v10)) ∧
      build .v13 labelRequest = .error (.request .noOutPort) ∧
      buildNegotiated 2 labelRequest = .error (.controller (.unsupportedVersion 2)) ∧
      ∀ field id, build .v10 labelRequest ≠ .error (.request (.badVlanId field id)) := by
  have other : (2 : UInt8) ∉ [1, 3, 4] := by decide
  have accepted : ofText "\x7b\"dpid\":7,\"inport\":1,\"mpls_label\":102\x7d".toList = .ok labelRequest := by
    rfl
  obtain ⟨reported, _, _, unsupported, notTag⟩ := refused_first labelRequest
  exact ⟨other, accepted, (reported _ _).mpr rfl, (reported _ _).mpr rfl, unsupported 2 other,
    fun field id => (notTag _ accepted .v10 field).1 id⟩

end Request
end PatchPanel
