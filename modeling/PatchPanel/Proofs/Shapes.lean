import PatchPanel.Proofs.Refusals
import Mathlib.Data.List.Basic

/-!
The shape of the rules that any steps make, in any order and with steps among them that the version refuses
(`Draft.rules_shape`). There is one rule, or one for ARP and one for IP where a later version takes a tag off, and
these two never drift apart: the closed form of the draft gives both the same priority, the same actions and the same
conditions but for the type of frames.
-/
namespace PatchPanel

/-! ### What a version can say -/

/-- The version has this action. -/
def Version.hasAction (version : Version) : Action → Bool
  | .output _ => true
  | .setVlanVid _ | .stripVlan => !version.hasPushVlan
  | .pushVlan _ | .popVlan | .pushMpls _ | .popMpls _ | .setField _ _ => version.hasPushVlan

/-- A match under a version has none of the conditions that only the other versions have. -/
structure Match.IsOf (version : Version) (m : Match) : Prop where
  ofFirst : version = .v10 →
    m.ethSrc = none ∧ m.ethDst = none ∧ m.ethType = none ∧ m.vlanVid = none ∧ m.mplsLabel = none
  ofLater : version ≠ .v10 → m.dlSrc = none ∧ m.dlDst = none ∧ m.dlVlan = none

namespace Step

/-- The port that a step adds an output to. -/
def output? : Step → Option UInt32
  | .output port => some port
  | _ => none

theorem all_hasAction_actions (version : Version) (step : Step) :
    (step.actions version).all version.hasAction = true := by
  cases version <;> cases step <;> rfl

/-- The outputs among the actions of steps are those that the steps ask for. -/
theorem outputPorts_of_actions {version : Version} {steps : List Step} {rule : Rule}
    (acts : rule.actions = steps.flatMap (Step.actions version)) : rule.outputPorts = steps.filterMap output? := by
  rw [Rule.outputPorts, acts, List.filterMap_flatMap, List.filterMap_eq_flatMap_toList output?]
  congr 1
  funext step
  cases version <;> cases step <;> rfl

/-- A step adds an action exactly if it is meant to and the version does not refuse it. -/
theorem actions_eq_nil_iff {version : Version} {step : Step} :
    step.actions version = [] ↔ (step.fault? version = none → step.isAction = false) := by
  unfold fault? isMpls isAction
  cases version <;> cases step <;> simp [actions, Version.hasPushVlan, modernActions, legacyActions]

end Step

theorem Draft.isOf_matchOf (version : Version) (steps : List Step) (ethType : Option UInt16) :
    (matchOf version steps ethType).IsOf version := by
  cases version with
  | v10 => exact ⟨fun _ => ⟨rfl, rfl, rfl, rfl, rfl⟩, fun later => absurd rfl later⟩
  | v12 => exact ⟨nofun, fun _ => ⟨rfl, rfl, rfl⟩⟩
  | v13 => exact ⟨nofun, fun _ => ⟨rfl, rfl, rfl⟩⟩

/-! ### Steps that are taken -/

namespace Draft

/-- The steps of a run that the version takes; the others change nothing. -/
def taken (d : Draft) : List Step → List Step
  | [] => []
  | step :: steps =>
    match d.apply step with
    | .ok next => step :: next.taken steps
    | .error _ => d.taken steps

/-- A version takes the steps that it has nothing against. -/
theorem taken_eq (d : Draft) (steps : List Step) :
    d.taken steps = steps.filter fun step => (step.fault? d.version).isNone := by
  induction steps generalizing d with
  | nil => rfl
  | cons step steps ih =>
    have fails := fault?_apply d step
    rw [taken]
    cases applied : d.apply step with
    | error fault =>
      rw [applied] at fails
      rw [List.filter_cons_of_neg (by simp [← fails, PatchPanel.fault?])]
      exact ih d
    | ok next =>
      rw [applied] at fails
      rw [List.filter_cons_of_pos (by simp [← fails, PatchPanel.fault?])]
      show step :: next.taken steps = _
      rw [ih next, version_apply applied]

/-- The steps that are taken make by themselves what all steps make. -/
theorem applyAll_taken (d : Draft) (steps : List Step) : d.applyAll (d.taken steps) = .ok (d.applyAny steps) := by
  induction steps generalizing d with
  | nil => rfl
  | cons step steps ih =>
    have first : d.applyAny (step :: steps) = ((d.apply step).toOption.getD d).applyAny steps := rfl
    rw [taken, first]
    cases applied : d.apply step with
    | error fault => exact ih d
    | ok next =>
      show d.applyAll (step :: next.taken steps) = .ok (next.applyAny steps)
      rw [applyAll, applied]
      exact ih next

/-- The first version refuses MPLS, and no other step is ever refused. -/
theorem apply_error_iff {d : Draft} {step : Step} {fault : ControllerFault} :
    d.apply step = .error fault ↔
      d.version = .v10 ∧ step.isMpls = true ∧ fault = .unsupportedAction step.field .v10 := by
  rw [← fault?_eq_some_iff, fault?_apply, Step.fault?]
  split
  · next refused =>
    rw [refused.1, Option.some.injEq]
    simp [refused.2, eq_comm]
  · next accepted =>
    constructor
    · nofun
    · exact fun ⟨first, mpls, _⟩ => absurd ⟨first, mpls⟩ accepted

/-! ### Rules of one shape -/

/-- The shape of the rules that steps make: there are two where a later version takes a tag off, and otherwise one.
    They differ at most in the type of frames and say nothing that the version cannot say. Their outputs are those of
    the steps, and they drop frames where no step that is taken adds an action. -/
structure Shape (version : Version) (steps : List Step) (rules : List Rule) : Prop where
  count : rules.length = 1 ∨ rules.length = 2
  forked : rules.length = 2 ↔ version ≠ .v10 ∧ .popVlan ∈ steps
  alike : ∀ a ∈ rules, ∀ b ∈ rules, a.untyped = b.untyped
  conditions : ∀ rule ∈ rules, rule.conditions.IsOf version
  actions : ∀ rule ∈ rules, ∀ action ∈ rule.actions, version.hasAction action = true
  outputs : ∀ rule ∈ rules, rule.outputPorts = steps.filterMap Step.output?
  drops : ∀ rule ∈ rules, rule.isDrop = true ↔ ∀ step ∈ (start version).taken steps, step.isAction = false

section
variable {version : Version} {steps : List Step}

/-- Without the type of frames, all rules of steps are one rule. -/
theorem untyped_of_mem_rules {rule : Rule} (member : rule ∈ (ofSteps version steps).rules) :
    rule.untyped =
      ⟨lastOf Step.priority? steps, matchOf version steps none, steps.flatMap (Step.actions version)⟩ := by
  obtain ⟨priority, acts, ethType, conditions⟩ := of_mem_rules_ofSteps member
  rw [Rule.untyped, priority, acts, conditions]
  cases version <;> rfl

theorem isDrop_of_mem_rules {rule : Rule} (member : rule ∈ (ofSteps version steps).rules) :
    rule.isDrop = true ↔ ∀ step ∈ (start version).taken steps, step.isAction = false := by
  obtain ⟨_, acts, _⟩ := of_mem_rules_ofSteps member
  rw [Rule.isDrop, List.isEmpty_iff, acts, List.flatMap_eq_nil_iff, taken_eq]
  simp only [Step.actions_eq_nil_iff, List.mem_filter, Option.isNone_iff_eq_none, and_imp]
  rfl

theorem shape_ofSteps (version : Version) (steps : List Step) : Shape version steps (ofSteps version steps).rules where
  count := by
    rw [length_rules]
    split
    · exact .inr rfl
    · exact .inl rfl
  forked := by
    have forks : (ofSteps version steps).forked = true ↔ version ≠ .v10 ∧ .popVlan ∈ steps := by
      cases version <;> simp [ofSteps, Version.hasPushVlan]
    rw [length_rules, ← forks]
    split <;> simp [*]
  alike a ofA b ofB := by rw [untyped_of_mem_rules ofA, untyped_of_mem_rules ofB]
  conditions rule member := by
    obtain ⟨_, _, ethType, conditions⟩ := of_mem_rules_ofSteps member
    rw [conditions]
    exact isOf_matchOf version steps ethType
  actions rule member action listed := by
    obtain ⟨_, acts, _⟩ := of_mem_rules_ofSteps member
    rw [acts] at listed
    obtain ⟨step, _, own⟩ := List.mem_flatMap.mp listed
    exact List.all_eq_true.mp (Step.all_hasAction_actions version step) action own
  outputs rule member := Step.outputPorts_of_actions (of_mem_rules_ofSteps member).2.1
  drops rule member := isDrop_of_mem_rules member

end

/-- The rules that any steps make have one shape under every version, and the steps that are taken make them alone. A
    further step is refused exactly if it asks the first version for MPLS, and then the rules stay what they are. -/
theorem rules_shape (version : Version) (steps : List Step) :
    Shape version steps ((start version).applyAny steps).rules ∧
      (start version).applyAll ((start version).taken steps) = .ok ((start version).applyAny steps) ∧
      ∀ step fault, (((start version).applyAny steps).apply step = .error fault ↔
          version = .v10 ∧ step.isMpls = true ∧ fault = .unsupportedAction step.field .v10) ∧
        (((start version).applyAny steps).apply step = .error fault →
          ((start version).applyAny (steps ++ [step])).rules = ((start version).applyAny steps).rules) := by
  refine ⟨?_, applyAll_taken _ steps, fun step fault => ⟨?_, fun refused => ?_⟩⟩
  · rw [applyAny_start]
    exact shape_ofSteps version steps
  · rw [apply_error_iff, applyAny_start]
    rfl
  · rw [applyAny_concat, next, refused]
    rfl

/-- Steps by which labelled frames leave by one port as they are, and by another without their tag and label. -/
def untagSteps : List Step := [.mplsLabel 102, .output 2, .popVlan, .popMpls, .output 1]

/-- Of these steps the later versions make two rules, which differ in the type of frames. The first version makes one
    and refuses the label and its removal, and a further label too. -/
theorem rules_shape_untag :
    (∃ arp ip, ((start .v13).applyAny untagSteps).rules = [arp, ip] ∧ arp.untyped = ip.untyped ∧
      ip.outputPorts = [2, 1] ∧ ip.isDrop = false) ∧
    ((start .v13).applyAny untagSteps).rules.map (fun rule => rule.conditions.ethType) =
      [some ethTypeArp, some ethTypeIp] ∧
    ((start .v10).applyAny untagSteps).rules.length ≠ 2 ∧
    ((start .v10).applyAny (untagSteps ++ [.pushMpls 5])).rules = ((start .v10).applyAny untagSteps).rules := by
  obtain ⟨shape, _⟩ := rules_shape .v13 untagSteps
  obtain ⟨legacy, _, refuses⟩ := rules_shape .v10 untagSteps
  obtain ⟨refused, kept⟩ := refuses (.pushMpls 5) (.unsupportedAction "push_mpls" .v10)
  obtain ⟨arp, ip, rules⟩ := List.length_eq_two.mp (shape.forked.mpr ⟨by decide, by decide⟩)
  rw [rules] at shape
  have acts : ip.isDrop = false := by
    rw [Bool.eq_false_iff, Ne, shape.drops ip (by simp)]
    decide
  refine ⟨⟨arp, ip, rules, shape.alike arp (by simp) ip (by simp), shape.outputs ip (by simp), acts⟩, rfl, ?_, ?_⟩
  · exact fun two => (legacy.forked.mp two).1 rfl
  · exact kept (refused.mpr ⟨rfl, rfl, rfl⟩)

end Draft
end PatchPanel
