import PatchPanel.Proofs.Building

/-!
The encodings of the OpenFlow versions. OpenFlow 1.2 and 1.3 have one encoding (`build_v12`). Without
MPLS the encoding of OpenFlow 1.0 says the same as theirs: a draft of the later versions renders the
draft of OpenFlow 1.0 after every step (`Draft.Renders`), so each of its rules, written with the
conditions and actions of OpenFlow 1.0, is the one rule of that version.
-/
namespace PatchPanel

/-! ### Steps one after the other -/

namespace Draft

/-- The draft under another version. -/
def under (version : Version) (d : Draft) : Draft := { d with version := version }

/-- The later versions take every step. -/
theorem apply_modern {d : Draft} (later : d.version.hasPushVlan = true) (step : Step) :
    d.apply step = .ok (d.applyModern step) := by
  unfold apply
  cases version : d.version with
  | v10 =>
    rw [version] at later
    cases later
  | v12 => rfl
  | v13 => rfl

theorem apply_under {d : Draft} {version : Version} (later : d.version.hasPushVlan = true)
    (other : version.hasPushVlan = true) (step : Step) :
    (d.under version).apply step = (d.apply step).map (under version) := by
  rw [apply_modern later, apply_modern (d := d.under version) other]
  cases step <;> rfl

theorem version_applyModern (d : Draft) (step : Step) : (d.applyModern step).version = d.version := by
  cases step <;> rfl

/-- The later versions differ in nothing but their name. -/
theorem applyAll_under {d : Draft} {version : Version} (later : d.version.hasPushVlan = true)
    (other : version.hasPushVlan = true) (steps : List Step) :
    (d.under version).applyAll steps = (d.applyAll steps).map (under version) := by
  induction steps generalizing d with
  | nil => rfl
  | cons step steps ih =>
    rw [applyAll, applyAll, apply_under later other, apply_modern later]
    exact ih (by rwa [version_applyModern])

theorem version_apply {d e : Draft} {step : Step} (applied : d.apply step = .ok e) : e.version = d.version := by
  unfold apply at applied
  cases version : d.version with
  | v10 =>
    rw [version] at applied
    cases step <;> cases applied <;> exact version
  | v12 =>
    rw [version] at applied
    cases applied
    rw [version_applyModern, version]
  | v13 =>
    rw [version] at applied
    cases applied
    rw [version_applyModern, version]

/-- Steps keep the version. -/
theorem version_applyAll {d e : Draft} {steps : List Step} (applied : d.applyAll steps = .ok e) :
    e.version = d.version := by
  induction steps generalizing d with
  | nil =>
    cases applied
    rfl
  | cons step steps ih =>
    rw [applyAll] at applied
    split at applied
    · next next first => rw [ih applied, version_apply first]
    · cases applied

theorem length_rules (d : Draft) : d.rules.length = if d.forked then 2 else 1 := by
  unfold rules
  cases d.forked <;> rfl

end Draft

/-- The steps of a request that is built, and the two drafts on the way. -/
theorem build_ok_iff {version : Version} {r : Request} {rules : List Rule} :
    build version r = .ok rules ↔ r.check = .ok () ∧ r.outputPorts ≠ [] ∧ ∃ inPort drafted finished,
      r.inPort = some inPort ∧
      (Draft.start version).applyAll (r.matchSteps inPort ++ r.tagSteps) = .ok drafted ∧
      drafted.applyAll r.outputSteps = .ok finished ∧ rules = finished.rules := by
  simp only [build, draft, check_bind_eq_ok_iff, mapError_eq_ok_iff]
  cases r.inPort with
  | none => simp
  | some inPort =>
    simp only [bind_eq_ok_iff, mapError_eq_ok_iff, List.isEmpty_iff]
    by_cases noOutput : r.outputPorts = []
    · simp [noOutput]
    · simp [noOutput, bind_eq_ok_iff, mapError_eq_ok_iff, eq_comm (a := rules)]

/-- OpenFlow 1.2 and OpenFlow 1.3 have the same rules for every request. -/
theorem build_v12 : build .v12 = build .v13 := by
  funext r
  have drafts : ∀ steps, (Draft.start .v12).applyAll steps = ((Draft.start .v13).applyAll steps).map (.under .v12) :=
    Draft.applyAll_under (d := .start .v13) rfl rfl
  unfold build draft
  cases r.check with
  | error fault => rfl
  | ok _ =>
    cases r.inPort with
    | none => rfl
    | some inPort =>
      simp only [drafts]
      cases drafted : (Draft.start .v13).applyAll (r.matchSteps inPort ++ r.tagSteps) with
      | error fault => rfl
      | ok d =>
        have outputs : (d.under .v12).applyAll r.outputSteps = (d.applyAll r.outputSteps).map (.under .v12) := by
          apply Draft.applyAll_under _ rfl
          rw [Draft.version_applyAll drafted]
          rfl
        simp only [Except.map, Except.mapError, ok_bind, outputs]
        split
        · rfl
        · cases d.applyAll r.outputSteps <;> rfl

/-! ### Rules in the terms of OpenFlow 1.0 -/

/-- The action of OpenFlow 1.0 for an action of the later versions. Putting a tag on needs none of its
    own, since writing a VLAN id does it. -/
def Action.legacy? : Action → Option Action
  | .pushVlan _ => none
  | .popVlan => some .stripVlan
  | .setField field value =>
    if field = "vlan_vid" then some (.setVlanVid (value - vlanPresent).toUInt16) else some (.setField field value)
  | a => some a

/-- The conditions of OpenFlow 1.0 for conditions of the later versions, which name the type of a frame
    besides. -/
def Match.legacy (m : Match) : Match :=
  { m with
    dlSrc := m.ethSrc
    dlDst := m.ethDst
    dlVlan := m.vlanVid
    ethSrc := none
    ethDst := none
    ethType := none
    vlanVid := none }

/-- The rule of OpenFlow 1.0 that says what a rule of the later versions says. -/
def Rule.legacy (r : Rule) : Rule := ⟨r.priority, r.conditions.legacy, r.actions.filterMap Action.legacy?⟩

theorem Action.legacy?_setVlanField (vlanVid : UInt16) :
    (Draft.setVlanField vlanVid).legacy? = some (.setVlanVid vlanVid) := by
  have kept : (vlanPresent + vlanVid.toUInt32 - vlanPresent).toUInt16 = vlanVid := by
    rw [UInt32.add_comm, UInt32.add_sub_cancel, UInt16.toUInt16_toUInt32]
  calc (Draft.setVlanField vlanVid).legacy?
      = some (.setVlanVid (vlanPresent + vlanVid.toUInt32 - vlanPresent).toUInt16) := rfl
    _ = some (.setVlanVid vlanVid) := by rw [kept]

namespace Draft

/-- A draft of a later version renders a draft of OpenFlow 1.0: in the terms of OpenFlow 1.0, both its
    forms are the one form there. -/
structure Renders (modern legacy : Draft) : Prop where
  later : modern.version.hasPushVlan = true
  first : legacy.version = .v10
  single : legacy.forked = false
  priority : legacy.priority = modern.priority
  arp : modern.arp.legacy = legacy.ip
  ip : modern.ip.legacy = legacy.ip
  arpActions : modern.arpActions.filterMap Action.legacy? = legacy.ipActions
  ipActions : modern.ipActions.filterMap Action.legacy? = legacy.ipActions

namespace Renders
variable {modern legacy : Draft}

theorem start : (Draft.start .v13).Renders (.start .v10) := by
  constructor <;> rfl

theorem onMatch (renders : modern.Renders legacy) {change old : Match → Match}
    (same : ∀ m, (change m).legacy = old m.legacy) : (modern.onMatch change).Renders (legacy.onMatch old) := by
  obtain ⟨later, first, single, priority, arp, ip, arpActions, ipActions⟩ := renders
  refine ⟨later, first, single, priority, ?_, ?_, arpActions, ipActions⟩
  · exact (same modern.arp).trans (congrArg old arp)
  · exact (same modern.ip).trans (congrArg old ip)

theorem act (renders : modern.Renders legacy) {actions old : List Action}
    (same : actions.filterMap Action.legacy? = old) : (modern.act actions).Renders (legacy.act old) := by
  obtain ⟨later, first, single, priority, arp, ip, arpActions, ipActions⟩ := renders
  refine ⟨later, first, single, priority, arp, ip, ?_, ?_⟩
  · simp only [Draft.act, List.filterMap_append, arpActions, same]
  · simp only [Draft.act, List.filterMap_append, ipActions, same]

/-- A fork tells its two forms apart by the type of a frame, which OpenFlow 1.0 leaves out. -/
theorem fork (renders : modern.Renders legacy) : modern.fork.Renders legacy :=
  ⟨renders.later, renders.first, renders.single, renders.priority, renders.arp, renders.ip, renders.arpActions,
    renders.ipActions⟩

/-- One step: a step without MPLS is taken in both encodings, and the drafts after it say the same. -/
theorem apply (renders : modern.Renders legacy) {step : Step} (supported : step.isMpls = false) :
    ∃ modern' legacy', modern.apply step = .ok modern' ∧ legacy.apply step = .ok legacy' ∧ modern'.Renders legacy' := by
  have old : legacy.apply step = legacy.applyLegacy step := by
    unfold Draft.apply
    rw [renders.first]
  rw [apply_modern renders.later, old]
  cases step with
  | priority value =>
    exact ⟨_, _, rfl, rfl, renders.later, renders.first, renders.single, rfl, renders.arp, renders.ip,
      renders.arpActions, renders.ipActions⟩
  | inPort port =>
    rw [applyModern, applyLegacy]
    exact ⟨_, _, rfl, rfl, renders.onMatch fun _ => rfl⟩
  | ethSrc address =>
    rw [applyModern, applyLegacy]
    exact ⟨_, _, rfl, rfl, renders.onMatch fun _ => rfl⟩
  | ethDst address =>
    rw [applyModern, applyLegacy]
    exact ⟨_, _, rfl, rfl, renders.onMatch fun _ => rfl⟩
  | vlanVid vlanVid =>
    rw [applyModern, applyLegacy]
    exact ⟨_, _, rfl, rfl, renders.onMatch fun _ => rfl⟩
  | output port => exact ⟨_, _, rfl, rfl, renders.act rfl⟩
  | setVlan vlanVid =>
    refine ⟨_, _, rfl, rfl, renders.act ?_⟩
    rw [List.filterMap_cons_some (Action.legacy?_setVlanField vlanVid), List.filterMap_nil]
  | pushVlan vlanVid =>
    refine ⟨_, _, rfl, rfl, renders.act ?_⟩
    rw [List.filterMap_cons_none rfl, List.filterMap_cons_some (Action.legacy?_setVlanField vlanVid),
      List.filterMap_nil]
  | popVlan => exact ⟨_, _, rfl, rfl, renders.fork.act rfl⟩
  | mplsLabel label => cases supported
  | pushMpls label => cases supported
  | popMpls => cases supported

/-- All steps of a run. -/
theorem applyAll (renders : modern.Renders legacy) {steps : List Step}
    (supported : ∀ step ∈ steps, step.isMpls = false) :
    ∃ modern' legacy', modern.applyAll steps = .ok modern' ∧ legacy.applyAll steps = .ok legacy' ∧
      modern'.Renders legacy' := by
  induction steps generalizing modern legacy with
  | nil => exact ⟨modern, legacy, rfl, rfl, renders⟩
  | cons step steps ih =>
    obtain ⟨here, others⟩ := List.forall_mem_cons.mp supported
    obtain ⟨modern', legacy', first, old, still⟩ := renders.apply here
    rw [Draft.applyAll, Draft.applyAll, first, old]
    exact ih still others

theorem rules (renders : modern.Renders legacy) :
    ∃ rule, legacy.rules = [rule] ∧ ∀ r ∈ modern.rules, r.legacy = rule := by
  obtain ⟨_, _, single, priority, arp, ip, arpActions, ipActions⟩ := renders
  refine ⟨⟨legacy.priority, legacy.ip, legacy.ipActions⟩, by simp [Draft.rules, single], ?_⟩
  intro r member
  unfold Draft.rules at member
  split at member
  · rcases List.mem_pair.mp member with rfl | rfl
    · simp [Rule.legacy, priority, arp, arpActions]
    · simp [Rule.legacy, priority, ip, ipActions]
  · rw [List.mem_singleton.mp member]
    simp [Rule.legacy, priority, ip, ipActions]

end Renders
end Draft

/-- A request without MPLS fields is refused under OpenFlow 1.0 if and only if it is refused under
    OpenFlow 1.3, for the same fault. Where it is not, OpenFlow 1.0 has one rule for it, and each rule of
    OpenFlow 1.3, of which there are one or two, is that rule in the terms of OpenFlow 1.0. -/
theorem build_legacy {r : Request} (noMpls : r.mplsLabel = none ∧ r.pushMpls = none ∧ r.popMpls = false) :
    (∀ fault, build .v10 r = .error fault ↔ build .v13 r = .error fault) ∧
      ∀ rules, build .v13 r = .ok rules → rules ≠ [] ∧
        ∃ rule, build .v10 r = .ok [rule] ∧ ∀ modern ∈ rules, modern.legacy = rule := by
  unfold build draft
  cases r.check with
  | error fault => simp [Except.mapError]
  | ok _ =>
    cases r.inPort with
    | none => simp [Except.mapError]
    | some inPort =>
      obtain ⟨modern, legacy, first, old, renders⟩ := Draft.Renders.start.applyAll (r.steps_supported noMpls inPort)
      obtain ⟨finished, oldFinished, second, oldSecond, still⟩ := renders.applyAll r.outputSteps_supported
      obtain ⟨rule, one, each⟩ := still.rules
      have nonempty : finished.rules ≠ [] := by
        rw [← List.length_pos_iff, Draft.length_rules]
        split <;> omega
      by_cases noOutput : r.outputPorts = []
      · simp [first, old, noOutput, Except.mapError]
      · simpa [first, old, second, oldSecond, noOutput, one, nonempty, Except.mapError] using each

/-- A request that takes one tag off, puts another on and sends out of two ports. -/
def retagRequest : Request :=
  { Request.forward 1 2 3 9 with
    outPorts := some [4, 5], ethDst := some "ff", vlanVid := some 200, popVlan := true, setVlan := some 7 }

/-- The two rules of OpenFlow 1.3 for the retagging request are one rule of OpenFlow 1.0, which asks for the port, the
    address and the tag of the request and for nothing else. -/
theorem build_legacy_retag :
    (retagRequest.mplsLabel = none ∧ retagRequest.pushMpls = none ∧ retagRequest.popMpls = false) ∧
      ∃ rules rule, build .v13 retagRequest = .ok rules ∧ build .v10 retagRequest = .ok [rule] ∧
        rules.length = 2 ∧ (∀ modern ∈ rules, modern.legacy = rule) ∧
        rule.conditions = { Match.any with inPort := some 2, dlDst := some "ff", dlVlan := some 200 } ∧
        rule.actions = [.stripVlan, .setVlanVid 7, .output 4, .output 5] := by
  have noMpls : retagRequest.mplsLabel = none ∧ retagRequest.pushMpls = none ∧ retagRequest.popMpls = false :=
    ⟨rfl, rfl, rfl⟩
  obtain ⟨rules, built⟩ : ∃ rules, build .v13 retagRequest = .ok rules := ⟨_, rfl⟩
  obtain ⟨_, rule, old, each⟩ := (build_legacy noMpls).2 rules built
  refine ⟨noMpls, rules, rule, built, old, ?_, each, ?_, ?_⟩
  · cases built
    rfl
  · cases old
    rfl
  · cases old
    rfl

end PatchPanel
