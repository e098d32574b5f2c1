import PatchPanel.Proofs.Encodings
import Mathlib.Data.List.Induction

/-!
What a draft is after any steps. Each condition is that of the last step that sets it, and the actions are those
of all steps in their order (`Draft.applyAny_start`). So the order of the steps matters to nothing but the order
of the actions and the type of frames, which three steps of the later versions write: where two of these stand
next to each other and none follows, exchanging them gives other rules (`Draft.rules_exchanged`).
-/
namespace PatchPanel

/-! ### What a step sets -/

namespace Step

/-- The field of a request that asks for the step. -/
def field : Step → String
  | .priority _ => "priority"
  | .inPort _ => "inport"
  | .ethSrc _ => "eth_src"
  | .ethDst _ => "eth_dst"
  | .vlanVid _ => "vlan_vid"
  | .mplsLabel _ => "mpls_label"
  | .output _ => "outport"
  | .setVlan _ => "set_vlan"
  | .pushVlan _ => "push_vlan"
  | .popVlan => "pop_vlan"
  | .pushMpls _ => "push_mpls"
  | .popMpls => "pop_mpls"

/-- The step adds an action; the others set the priority or a condition. -/
def isAction : Step → Bool
  | .output _ | .setVlan _ | .pushVlan _ | .popVlan | .pushMpls _ | .popMpls => true
  | _ => false

/-- The step narrows a draft of the later versions to a type of frames. -/
def isTyping : Step → Bool
  | .vlanVid _ | .mplsLabel _ | .popVlan => true
  | _ => false

def priority? : Step → Option UInt16
  | .priority value => some value
  | _ => none

def inPort? : Step → Option UInt32
  | .inPort port => some port
  | _ => none

def ethSrc? : Step → Option String
  | .ethSrc address => some address
  | _ => none

def ethDst? : Step → Option String
  | .ethDst address => some address
  | _ => none

def vlanVid? : Step → Option UInt16
  | .vlanVid vlan => some vlan
  | _ => none

def mplsLabel? : Step → Option UInt32
  | .mplsLabel label => some label
  | _ => none

/-- The types of frames that a step of the later versions gives to the ARP form and to the IP form. -/
def types? : Step → Option (UInt16 × UInt16)
  | .vlanVid _ => some (ethTypeArp, ethTypeArp)
  | .mplsLabel _ => some (ethTypeMpls, ethTypeMpls)
  | .popVlan => some (ethTypeArp, ethTypeIp)
  | _ => none

/-- The actions that a step adds under OpenFlow 1.0. -/
def legacyActions : Step → List Action
  | .output port => [.output port]
  | .setVlan vlan | .pushVlan vlan => [.setVlanVid vlan]
  | .popVlan => [.stripVlan]
  | .priority _ | .inPort _ | .ethSrc _ | .ethDst _ | .vlanVid _ | .mplsLabel _ | .pushMpls _ | .popMpls => []

/-- The actions that a step adds under the later versions. -/
def modernActions : Step → List Action
  | .output port => [.output port]
  | .setVlan vlan => [Draft.setVlanField vlan]
  | .pushVlan vlan => [.pushVlan ethTypeVlan, Draft.setVlanField vlan]
  | .popVlan => [.popVlan]
  | .pushMpls label => [.pushMpls ethTypeMpls, .setField "mpls_label" label]
  | .popMpls => [.popMpls ethTypeArp]
  | .priority _ | .inPort _ | .ethSrc _ | .ethDst _ | .vlanVid _ | .mplsLabel _ => []

def actions (version : Version) : Step → List Action :=
  if version.hasPushVlan then modernActions else legacyActions

theorem actions_eq_nil {step : Step} (none : step.isAction = false) (version : Version) :
    step.actions version = [] := by
  unfold actions
  cases version.hasPushVlan <;> cases step <;> first | rfl | cases none

theorem isTyping_eq (step : Step) : step.isTyping = step.types?.isSome := by
  cases step <;> rfl

/-- Steps of different fields narrow the IP form to different types. -/
theorem field_of_types? {a b : Step} {s t : UInt16 × UInt16} (ofA : a.types? = some s) (ofB : b.types? = some t)
    (same : s.2 = t.2) : a.field = b.field ∧ s = t := by
  cases a <;> cases ofA <;> cases b <;> cases ofB <;> first | exact ⟨rfl, rfl⟩ | exact absurd same (by decide)

end Step

/-! ### The last step that sets a value -/

section
variable {α β γ : Type}

/-- The value that the last of the steps gives that gives one. -/
def lastOf (f : α → Option β) (steps : List α) : Option β := (steps.filterMap f).getLast?

@[simp] theorem lastOf_append (f : α → Option β) (steps later : List α) :
    lastOf f (steps ++ later) = (lastOf f later).or (lastOf f steps) := by
  rw [lastOf, List.filterMap_append, List.getLast?_append]
  rfl

@[simp] theorem lastOf_singleton (f : α → Option β) (step : α) : lastOf f [step] = f step := by
  cases given : f step <;> simp [lastOf, given]

theorem lastOf_eq_none_iff {f : α → Option β} {steps : List α} :
    lastOf f steps = none ↔ ∀ step ∈ steps, f step = none := by
  rw [lastOf, List.getLast?_eq_none_iff, List.filterMap_eq_nil_iff]

theorem exists_of_lastOf {f : α → Option β} {steps : List α} {value : β} (last : lastOf f steps = some value) :
    ∃ step ∈ steps, f step = some value :=
  List.mem_filterMap.mp (List.mem_of_getLast? last)

theorem lastOf_pair (f : α → Option β) (before : List α) (a b : α) (after : List α) :
    lastOf f (before ++ [a, b] ++ after) = (lastOf f after).or ((f b).or ((f a).or (lastOf f before))) := by
  have split : [a, b] = [a] ++ [b] := rfl
  rw [split, lastOf_append, lastOf_append, lastOf_append, lastOf_singleton, lastOf_singleton, Option.or_assoc]

/-- Two neighbours of which only one gives a value may change places. -/
theorem lastOf_exchange {f : α → Option β} {a b : α} (one : f a = none ∨ f b = none) (before after : List α) :
    lastOf f (before ++ [a, b] ++ after) = lastOf f (before ++ [b, a] ++ after) := by
  rw [lastOf_pair, lastOf_pair]
  rcases one with none | none <;> simp [none]

/-- Two neighbours that both give a value may change places exactly if they give the same one, or a later step
    gives one. -/
theorem lastOf_exchange_iff {f : α → Option β} {a b : α} {x y : β} (ofA : f a = some x) (ofB : f b = some y)
    (before after : List α) :
    lastOf f (before ++ [a, b] ++ after) = lastOf f (before ++ [b, a] ++ after) ↔
      x = y ∨ ∃ step ∈ after, f step ≠ none := by
  rw [lastOf_pair, lastOf_pair, ofA, ofB]
  cases later : lastOf f after with
  | none =>
    have none := lastOf_eq_none_iff.mp later
    simp only [Option.none_or, Option.some_or, Option.some.injEq]
    constructor
    · exact fun same => .inl same.symm
    · rintro (same | ⟨step, member, given⟩)
      · exact same.symm
      · exact absurd (none step member) given
  | some z =>
    simp only [Option.some_or, true_iff]
    right
    by_contra absent
    push Not at absent
    rw [lastOf_eq_none_iff.mpr absent] at later
    cases later

end

namespace Draft

/-! ### One step, and any steps -/

/-- The draft after a step, which changes nothing if the version does not support it. -/
def next (d : Draft) (step : Step) : Draft := (d.apply step).toOption.getD d

theorem next_modern {d : Draft} (later : d.version.hasPushVlan = true) (step : Step) :
    d.next step = d.applyModern step := by
  rw [next, apply_modern later]
  rfl

theorem next_legacy {d : Draft} (first : d.version = .v10) (step : Step) :
    d.next step = (d.applyLegacy step).toOption.getD d := by
  simp only [next, apply, first]

theorem applyAny_concat (d : Draft) (steps : List Step) (step : Step) :
    d.applyAny (steps ++ [step]) = (d.applyAny steps).next step := by
  rw [applyAny, List.foldl_append]
  rfl

/-- The conditions that steps set on frames, under OpenFlow 1.0. -/
def legacyMatch (steps : List Step) : Match :=
  { Match.any with
    inPort := lastOf Step.inPort? steps
    dlSrc := lastOf Step.ethSrc? steps
    dlDst := lastOf Step.ethDst? steps
    dlVlan := lastOf Step.vlanVid? steps }

/-- The conditions that steps set on frames of a type, under the later versions. -/
def modernMatch (steps : List Step) (ethType : Option UInt16) : Match :=
  { Match.any with
    inPort := lastOf Step.inPort? steps
    ethSrc := lastOf Step.ethSrc? steps
    ethDst := lastOf Step.ethDst? steps
    ethType := ethType
    vlanVid := lastOf Step.vlanVid? steps
    mplsLabel := lastOf Step.mplsLabel? steps }

/-- The draft of steps in closed form: the last value of each condition, and all actions in order. -/
def ofSteps (version : Version) (steps : List Step) : Draft where
  version := version
  priority := lastOf Step.priority? steps
  arp := if version.hasPushVlan then modernMatch steps ((lastOf Step.types? steps).map Prod.fst) else legacyMatch steps
  ip := if version.hasPushVlan then modernMatch steps ((lastOf Step.types? steps).map Prod.snd) else legacyMatch steps
  arpActions := steps.flatMap (Step.actions version)
  ipActions := steps.flatMap (Step.actions version)
  forked := version.hasPushVlan && steps.contains .popVlan

theorem modernMatch_concat (steps : List Step) (step : Step) (ethType : Option UInt16) :
    modernMatch (steps ++ [step]) ethType =
      { Match.any with
        inPort := step.inPort?.or (lastOf Step.inPort? steps)
        ethSrc := step.ethSrc?.or (lastOf Step.ethSrc? steps)
        ethDst := step.ethDst?.or (lastOf Step.ethDst? steps)
        ethType := ethType
        vlanVid := step.vlanVid?.or (lastOf Step.vlanVid? steps)
        mplsLabel := step.mplsLabel?.or (lastOf Step.mplsLabel? steps) } := by
  simp only [modernMatch, lastOf_append, lastOf_singleton]

theorem legacyMatch_concat (steps : List Step) (step : Step) :
    legacyMatch (steps ++ [step]) =
      { Match.any with
        inPort := step.inPort?.or (lastOf Step.inPort? steps)
        dlSrc := step.ethSrc?.or (lastOf Step.ethSrc? steps)
        dlDst := step.ethDst?.or (lastOf Step.ethDst? steps)
        dlVlan := step.vlanVid?.or (lastOf Step.vlanVid? steps) } := by
  simp only [legacyMatch, lastOf_append, lastOf_singleton]

theorem contains_popVlan_concat (steps : List Step) (step : Step) :
    (steps ++ [step]).contains .popVlan = (step == .popVlan || steps.contains .popVlan) := by
  rw [List.contains_append, Bool.or_comm, List.contains_cons, List.contains_nil, Bool.or_false, BEq.comm]

/-- A further step changes the closed form as it changes the draft. -/
theorem ofSteps_concat (version : Version) (steps : List Step) (step : Step) :
    ofSteps version (steps ++ [step]) = (ofSteps version steps).next step := by
  cases pushes : version.hasPushVlan with
  | true =>
    rw [next_modern pushes]
    simp only [ofSteps, pushes, ↓reduceIte, lastOf_append, lastOf_singleton, modernMatch_concat,
      contains_popVlan_concat, List.flatMap_append, List.flatMap_singleton, Step.actions]
    cases step <;> simp only [Step.modernActions, List.append_nil] <;> rfl
  | false =>
    have first : version = .v10 := by
      cases version <;> first | rfl | cases pushes
    subst first
    rw [next_legacy rfl]
    simp only [ofSteps, pushes, Bool.false_eq_true, ↓reduceIte, lastOf_append, lastOf_singleton, legacyMatch_concat,
      List.flatMap_append, List.flatMap_singleton, Step.actions, Bool.false_and]
    cases step <;> simp only [Step.legacyActions, List.append_nil] <;> rfl

/-- What a draft is after any steps, of which the unsupported ones change nothing. -/
theorem applyAny_start (version : Version) (steps : List Step) :
    (start version).applyAny steps = ofSteps version steps := by
  induction steps using List.reverseRecOn with
  | nil => cases version <;> rfl
  | append_singleton steps step ih => rw [applyAny_concat, ih, ofSteps_concat]

theorem applyAny_of_applyAll {d e : Draft} {steps : List Step} (applied : d.applyAll steps = .ok e) :
    d.applyAny steps = e := by
  induction steps generalizing d with
  | nil => exact Except.ok.inj applied
  | cons step steps ih =>
    rw [applyAll] at applied
    split at applied
    · next next first =>
      have here : (d.apply step).toOption.getD d = next := by rw [first]; rfl
      rw [applyAny, List.foldl_cons, here]
      exact ih applied
    · cases applied

/-- The conditions that steps set under a version, of which the first one does not tell types of frames apart. -/
def matchOf (version : Version) (steps : List Step) (ethType : Option UInt16) : Match :=
  if version.hasPushVlan then modernMatch steps ethType else legacyMatch steps

@[simp] theorem inPort_matchOf (version : Version) (steps : List Step) (ethType : Option UInt16) :
    (matchOf version steps ethType).inPort = lastOf Step.inPort? steps := by
  unfold matchOf
  split <;> rfl

/-- All rules of steps have the priority that is set last and the actions of all steps, and their conditions differ
    at most in the type of frames. -/
theorem of_mem_rules_ofSteps {version : Version} {steps : List Step} {rule : Rule}
    (member : rule ∈ (ofSteps version steps).rules) :
    rule.priority = lastOf Step.priority? steps ∧ rule.actions = steps.flatMap (Step.actions version) ∧
      ∃ ethType, rule.conditions = matchOf version steps ethType := by
  unfold rules at member
  split at member
  · rcases List.mem_pair.mp member with rfl | rfl
    · exact ⟨rfl, rfl, _, rfl⟩
    · exact ⟨rfl, rfl, _, rfl⟩
  · rw [List.mem_singleton.mp member]
    exact ⟨rfl, rfl, _, rfl⟩

end Draft

/-! ### The order of steps -/

/-- The conditions without the type of frames. -/
def Match.untyped (m : Match) : Match := { m with ethType := none }

/-- The rule without the condition on the type of frames. -/
def Rule.untyped (r : Rule) : Rule := { r with conditions := r.conditions.untyped }

namespace Draft

/-- Drafts that differ at most in the types of frames. -/
structure SameButTypes (d e : Draft) : Prop where
  priority : d.priority = e.priority
  arp : d.arp.untyped = e.arp.untyped
  ip : d.ip.untyped = e.ip.untyped
  arpActions : d.arpActions = e.arpActions
  ipActions : d.ipActions = e.ipActions
  forked : d.forked = e.forked

theorem SameButTypes.rules {d e : Draft} (same : d.SameButTypes e) :
    d.rules.map Rule.untyped = e.rules.map Rule.untyped := by
  obtain ⟨priority, arp, ip, arpActions, ipActions, forked⟩ := same
  unfold Draft.rules
  rw [forked]
  split <;> simp [Rule.untyped, priority, arp, ip, arpActions, ipActions]

/-- The last rule of a draft is that of its IP form. -/
theorem ip_of_rules_eq {d e : Draft} (same : d.rules = e.rules) : d.ip = e.ip := by
  have last : ∀ d : Draft, d.rules.getLast? = some ⟨d.priority, d.ip, d.ipActions⟩ := by
    intro d
    unfold Draft.rules
    split <;> rfl
  have sameLast := last d
  rw [same, last e] at sameLast
  exact (Rule.mk.inj (Option.some.inj sameLast)).2.1.symm

section
variable {a b : Step} (version : Version) (before after : List Step)

/-- Exchanging steps of different fields that are not both actions changes no more than the types of frames,
    which the step that writes them last decides. -/
theorem ofSteps_exchange (apart : a.field ≠ b.field) (notActions : a.isAction = false ∨ b.isAction = false) :
    (ofSteps version (before ++ [a, b] ++ after)).SameButTypes (ofSteps version (before ++ [b, a] ++ after)) ∧
      ((version.hasPushVlan = true →
          lastOf Step.types? (before ++ [a, b] ++ after) = lastOf Step.types? (before ++ [b, a] ++ after)) →
        ofSteps version (before ++ [a, b] ++ after) = ofSteps version (before ++ [b, a] ++ after)) := by
  have exchange : ∀ {β : Type} (f : Step → Option β) (name : String), (∀ step, f step = none ∨ step.field = name) →
      lastOf f (before ++ [a, b] ++ after) = lastOf f (before ++ [b, a] ++ after) := by
    intro β f name only
    apply lastOf_exchange
    rcases only a with none | ofA
    · exact .inl none
    · rcases only b with none | ofB
      · exact .inr none
      · exact absurd (ofA.trans ofB.symm) apart
  have priority := exchange Step.priority? "priority" fun step => by cases step <;> simp [Step.priority?, Step.field]
  have inPort := exchange Step.inPort? "inport" fun step => by cases step <;> simp [Step.inPort?, Step.field]
  have ethSrc := exchange Step.ethSrc? "eth_src" fun step => by cases step <;> simp [Step.ethSrc?, Step.field]
  have ethDst := exchange Step.ethDst? "eth_dst" fun step => by cases step <;> simp [Step.ethDst?, Step.field]
  have vlanVid := exchange Step.vlanVid? "vlan_vid" fun step => by cases step <;> simp [Step.vlanVid?, Step.field]
  have mplsLabel := exchange Step.mplsLabel? "mpls_label" fun step => by
    cases step <;> simp [Step.mplsLabel?, Step.field]
  have actions : (before ++ [a, b] ++ after).flatMap (Step.actions version) =
      (before ++ [b, a] ++ after).flatMap (Step.actions version) := by
    rcases notActions with none | none <;> simp [Step.actions_eq_nil none]
  have forked : (before ++ [a, b] ++ after).contains .popVlan = (before ++ [b, a] ++ after).contains .popVlan :=
    ((List.Perm.swap b a []).append_left before |>.append_right after).contains_eq
  have modern : modernMatch (before ++ [a, b] ++ after) = modernMatch (before ++ [b, a] ++ after) := by
    funext ethType
    rw [modernMatch, modernMatch, inPort, ethSrc, ethDst, vlanVid, mplsLabel]
  have legacy : legacyMatch (before ++ [a, b] ++ after) = legacyMatch (before ++ [b, a] ++ after) := by
    rw [legacyMatch, legacyMatch, inPort, ethSrc, ethDst, vlanVid]
  refine ⟨⟨priority, ?_, ?_, actions, actions, ?_⟩, fun types => ?_⟩
  · simp only [ofSteps, modern, legacy]
    split <;> rfl
  · simp only [ofSteps, modern, legacy]
    split <;> rfl
  · simp only [ofSteps, forked]
  · cases pushes : version.hasPushVlan with
    | true => simp only [ofSteps, priority, modern, types pushes, actions, forked, pushes, ↓reduceIte]
    | false => simp only [ofSteps, priority, legacy, actions, pushes, Bool.false_eq_true, ↓reduceIte, Bool.false_and]

/-- Neighbours that write the type of frames leave it as it is, whichever comes first, where one of them does not
    write it or a later step does. -/
theorem lastOf_types?_exchange_iff (apart : a.field ≠ b.field) :
    lastOf Step.types? (before ++ [a, b] ++ after) = lastOf Step.types? (before ++ [b, a] ++ after) ↔
      ¬ (a.isTyping = true ∧ b.isTyping = true ∧ ∀ step ∈ after, step.isTyping = false) := by
  simp only [Step.isTyping_eq, Option.isSome_eq_false_iff, Option.isNone_iff_eq_none]
  cases ofA : a.types? with
  | none => simp only [lastOf_exchange (.inl ofA), Option.isSome_none, Bool.false_eq_true, false_and, not_false_eq_true]
  | some s =>
    cases ofB : b.types? with
    | none =>
      simp only [lastOf_exchange (.inr ofB), Option.isSome_none, Bool.false_eq_true, false_and, and_false,
        not_false_eq_true]
    | some t =>
      have differ : s ≠ t := fun same => apart (Step.field_of_types? ofA ofB (congrArg Prod.snd same)).1
      rw [lastOf_exchange_iff ofA ofB]
      simp [differ]

end

/-- The IP form alone tells which step was the last to write the types of frames. -/
theorem lastOf_types?_of_ip {version : Version} {steps others : List Step} (pushes : version.hasPushVlan = true)
    (same : (ofSteps version steps).ip = (ofSteps version others).ip) :
    lastOf Step.types? steps = lastOf Step.types? others := by
  simp only [ofSteps, pushes, ↓reduceIte] at same
  have types : (lastOf Step.types? steps).map Prod.snd = (lastOf Step.types? others).map Prod.snd :=
    congrArg Match.ethType same
  cases last : lastOf Step.types? steps with
  | none =>
    rw [last] at types
    exact (Option.map_eq_none_iff.mp types.symm).symm
  | some s =>
    rw [last] at types
    obtain ⟨t, lastOther, second⟩ := Option.map_eq_some_iff.mp types.symm
    obtain ⟨_, _, ofA⟩ := exists_of_lastOf last
    obtain ⟨_, _, ofB⟩ := exists_of_lastOf lastOther
    rw [lastOther, (Step.field_of_types? ofA ofB second.symm).2]

/-- The order of two neighbouring steps of different fields that are not both actions matters only to the types
    of frames, and not even to these under OpenFlow 1.0. It matters to these under the later versions exactly
    where both steps write the type of frames and no step behind them does. -/
theorem rules_exchanged (version : Version) (before after : List Step) {a b : Step} (apart : a.field ≠ b.field)
    (notActions : a.isAction = false ∨ b.isAction = false) :
    ((start version).applyAny (before ++ [a, b] ++ after)).rules.map Rule.untyped =
        ((start version).applyAny (before ++ [b, a] ++ after)).rules.map Rule.untyped ∧
      (((start version).applyAny (before ++ [a, b] ++ after)).rules =
          ((start version).applyAny (before ++ [b, a] ++ after)).rules ↔
        ¬ (version.hasPushVlan = true ∧ a.isTyping = true ∧ b.isTyping = true ∧
          ∀ step ∈ after, step.isTyping = false)) := by
  simp only [applyAny_start]
  obtain ⟨alike, whole⟩ := ofSteps_exchange version before after apart notActions
  have decided := lastOf_types?_exchange_iff before after apart
  refine ⟨alike.rules, ?_⟩
  constructor
  · rintro same ⟨pushes, typing⟩
    exact decided.mp (lastOf_types?_of_ip pushes (ip_of_rules_eq same)) typing
  · intro harmless
    rw [whole fun pushes => decided.mpr fun typing => harmless ⟨pushes, typing⟩]

/-- A condition on the address may be set before or behind the step that forks a draft into two rules. -/
theorem rules_exchanged_fork :
    (Step.ethDst "0a:00:00:00:00:01").field ≠ Step.popVlan.field ∧
      ((Step.ethDst "0a:00:00:00:00:01").isAction = false ∨ Step.popVlan.isAction = false) ∧
      ((start .v13).applyAny
          ([.inPort 2, .vlanVid 200] ++ [.ethDst "0a:00:00:00:00:01", .popVlan] ++ [.output 1])).rules =
        ((start .v13).applyAny
          ([.inPort 2, .vlanVid 200] ++ [.popVlan, .ethDst "0a:00:00:00:00:01"] ++ [.output 1])).rules ∧
      ((start .v13).applyAny
        [.inPort 2, .vlanVid 200, .popVlan, .ethDst "0a:00:00:00:00:01", .output 1]).rules.length = 2 := by
  have apart : (Step.ethDst "0a:00:00:00:00:01").field ≠ Step.popVlan.field := by decide
  obtain ⟨_, same⟩ := rules_exchanged .v13 [.inPort 2, .vlanVid 200] [.output 1] apart (.inl rfl)
  exact ⟨apart, .inl rfl, same.mpr fun typing => absurd typing.2.1 (by decide), by decide⟩

/-- Where a tag is taken off before it is matched, both rules are for ARP, and IP is lost. -/
theorem not_rules_exchanged_fork :
    (Step.popVlan).field ≠ (Step.vlanVid 200).field ∧ (Step.vlanVid 200).isAction = false ∧
      ((start .v13).applyAny [.vlanVid 200, .popVlan]).rules.map (fun r => r.conditions.ethType) =
        [some ethTypeArp, some ethTypeIp] ∧
      ((start .v13).applyAny [.popVlan, .vlanVid 200]).rules.map (fun r => r.conditions.ethType) =
        [some ethTypeArp, some ethTypeArp] ∧
      ((start .v13).applyAny [.popVlan, .vlanVid 200]).rules ≠
        ((start .v13).applyAny [.vlanVid 200, .popVlan]).rules := by
  decide

end Draft
end PatchPanel
