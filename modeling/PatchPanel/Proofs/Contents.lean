import PatchPanel.Proofs.Drafting

/-!
What the rules of a request say. They are those of its steps, of which each sets what one field of the request asks
for (`Request.rules_of_build`). Under the later versions there is one rule for each type of frames that the request
is about, and these types are all that the rules differ in (`build_contents`). A request that takes a VLAN tag off is
about ARP and IP only, also where it matches an MPLS label (`build_labelled`).
-/
namespace PatchPanel

/-! ### The steps of a request -/

section
variable {α β : Type} (f : Step → Option β)

theorem lastOf_given (step : α → Step) (value : Option α) :
    lastOf f (value.map step).toList = value.bind fun a => f (step a) := by
  cases value with
  | none => rfl
  | some a => exact lastOf_singleton f (step a)

theorem lastOf_asked (asked : Bool) (step : Step) :
    lastOf f (if asked then [step] else []) = if asked then f step else none := by
  cases asked with
  | false => rfl
  | true => exact lastOf_singleton f step

end

namespace Request

/-- The steps that make the rules of a request that takes frames from `inPort`. -/
def steps (r : Request) (inPort : UInt32) : List Step := r.matchSteps inPort ++ r.tagSteps ++ r.outputSteps

/-- What the steps of a request set last is what its last field sets that sets it. -/
theorem lastOf_steps {β : Type} {f : Step → Option β} (silent : ∀ port, f (.output port) = none) (r : Request)
    (inPort : UInt32) :
    lastOf f (r.steps inPort) =
      (if r.popMpls then f .popMpls else none).or ((r.pushMpls.bind fun label => f (.pushMpls label)).or
        ((r.setVlan.bind fun id => f (.setVlan id)).or ((if r.popVlan then f .popVlan else none).or
          ((r.pushVlan.bind fun id => f (.pushVlan id)).or ((r.mplsLabel.bind fun label => f (.mplsLabel label)).or
            ((r.vlanVid.bind fun id => f (.vlanVid id)).or ((r.ethDst.bind fun mac => f (.ethDst mac)).or
              ((r.ethSrc.bind fun mac => f (.ethSrc mac)).or ((f (.inPort inPort)).or
                (r.priority.bind fun priority => f (.priority priority))))))))))) := by
  have outputs : lastOf f r.outputSteps = none := by
    refine lastOf_eq_none_iff.mpr fun step member => ?_
    obtain ⟨port, _, rfl⟩ := List.mem_map.mp member
    exact silent port
  simp only [steps, matchSteps, tagSteps, lastOf_append, lastOf_given, lastOf_asked, lastOf_singleton, outputs,
    Option.none_or, Option.or_assoc]

/-- Each condition that the steps of a request set is that of its field. -/
theorem lastOf_steps_eq (r : Request) (inPort : UInt32) :
    lastOf Step.priority? (r.steps inPort) = r.priority ∧ lastOf Step.inPort? (r.steps inPort) = some inPort ∧
      lastOf Step.ethSrc? (r.steps inPort) = r.ethSrc ∧ lastOf Step.ethDst? (r.steps inPort) = r.ethDst ∧
      lastOf Step.vlanVid? (r.steps inPort) = r.vlanVid ∧ lastOf Step.mplsLabel? (r.steps inPort) = r.mplsLabel := by
  refine ⟨?_, ?_, ?_, ?_, ?_, ?_⟩ <;> rw [lastOf_steps fun _ => rfl]
  · simp [Step.priority?]
  · simp [Step.inPort?]
  · simp [Step.ethSrc?]
  · simp [Step.ethDst?]
  · simp [Step.vlanVid?]
  · simp [Step.mplsLabel?]

/-- The rules of a request are those of its steps in closed form. -/
theorem rules_of_build {version : Version} {r : Request} {rules : List Rule} (built : build version r = .ok rules) :
    r.outputPorts ≠ [] ∧ ∃ inPort, r.inPort = some inPort ∧ rules = (Draft.ofSteps version (r.steps inPort)).rules := by
  obtain ⟨_, leaving, inPort, drafted, finished, enters, first, second, rfl⟩ := build_ok_iff.mp built
  refine ⟨leaving, inPort, enters, ?_⟩
  rw [steps, ← Draft.applyAny_start, Draft.applyAny, List.foldl_append, ← Draft.applyAny, ← Draft.applyAny,
    Draft.applyAny_of_applyAll first, Draft.applyAny_of_applyAll second]

theorem popVlan_mem_steps {r : Request} {inPort : UInt32} : Step.popVlan ∈ r.steps inPort ↔ r.popVlan = true := by
  simp [steps, matchSteps, tagSteps, outputSteps]

/-- The draft of a request forks where a later version takes a tag off. -/
theorem forked_steps (version : Version) (r : Request) (inPort : UInt32) :
    (Draft.ofSteps version (r.steps inPort)).forked = (version.hasPushVlan && r.popVlan) := by
  rw [Draft.ofSteps, Bool.eq_iff_iff, Bool.and_eq_true, Bool.and_eq_true, List.contains_iff_mem, popVlan_mem_steps]

/-! ### Rules of the later versions -/

/-- The changes to a frame that a request asks for, as the later versions write them. -/
def tagActions (r : Request) : List Action :=
  r.pushVlan.toList.flatMap (fun id => [.pushVlan 0x8100, .setField "vlan_vid" (0x1000 + id.toUInt32)]) ++
    (if r.popVlan then [.popVlan] else []) ++
    r.setVlan.toList.map (fun id => .setField "vlan_vid" (0x1000 + id.toUInt32)) ++
    r.pushMpls.toList.flatMap (fun label => [.pushMpls 0x8847, .setField "mpls_label" label]) ++
    (if r.popMpls then [.popMpls 0x0806] else [])

/-- The rule of a request for frames of a type that leave by the given ports. -/
def ruleFor (r : Request) (ports : List UInt32) (ethType : Option UInt16) : Rule where
  priority := r.priority
  conditions :=
    { Match.any with
      inPort := r.inPort
      ethSrc := r.ethSrc
      ethDst := r.ethDst
      ethType := ethType
      vlanVid := r.vlanVid
      mplsLabel := r.mplsLabel }
  actions := r.tagActions ++ ports.map .output

/-- The types of frames that a request has rules for: ARP and IP where it takes a VLAN tag off. -/
def ethTypes (r : Request) : List (Option UInt16) :=
  if r.popVlan then [some 0x0806, some 0x0800]
  else if r.mplsLabel ≠ none then [some 0x8847]
  else if r.vlanVid ≠ none then [some 0x0806]
  else [none]

theorem modernMatch_steps (r : Request) {inPort : UInt32} (enters : r.inPort = some inPort) (ethType : Option UInt16) :
    Draft.modernMatch (r.steps inPort) ethType = (r.ruleFor [] ethType).conditions := by
  obtain ⟨_, inPorts, ethSrc, ethDst, vlanVid, mplsLabel⟩ := r.lastOf_steps_eq inPort
  rw [Draft.modernMatch, inPorts, ethSrc, ethDst, vlanVid, mplsLabel, ← enters]
  rfl

theorem isAction_of_mem_matchSteps {r : Request} {inPort : UInt32} {step : Step} (member : step ∈ r.matchSteps inPort) :
    step.isAction = false := by
  simp only [matchSteps, List.mem_append, List.mem_singleton, Option.mem_toList, Option.map_eq_some_iff] at member
  rcases member with ((((⟨_, _, rfl⟩ | rfl) | ⟨_, _, rfl⟩) | ⟨_, _, rfl⟩) | ⟨_, _, rfl⟩) | ⟨_, _, rfl⟩ <;> rfl

theorem flatMap_tagSteps (r : Request) : r.tagSteps.flatMap Step.modernActions = r.tagActions := by
  have given : ∀ {α : Type} (step : α → Step) (value : Option α),
      (value.map step).toList.flatMap Step.modernActions = value.toList.flatMap fun a => (step a).modernActions := by
    intro α step value
    cases value <;> rfl
  have asked : ∀ (asked : Bool) (step : Step), (if asked then [step] else []).flatMap Step.modernActions =
      if asked then step.modernActions else [] := by
    intro asked step
    cases asked with
    | false => rfl
    | true => exact List.flatMap_singleton ..
  simp only [tagSteps, List.flatMap_append, given, asked, tagActions, List.map_eq_flatMap]
  rfl

/-- The actions of the rules of a request under the later versions. -/
theorem actions_steps {version : Version} (later : version.hasPushVlan = true) (r : Request) (inPort : UInt32) :
    (r.steps inPort).flatMap (Step.actions version) = r.tagActions ++ r.outputPorts.map .output := by
  have modern : Step.actions version = Step.modernActions := by
    funext step
    rw [Step.actions, if_pos later]
  have conditions : (r.matchSteps inPort).flatMap (Step.actions version) = [] :=
    List.flatMap_eq_nil_iff.mpr fun step member => Step.actions_eq_nil (isAction_of_mem_matchSteps member) version
  have outputs : r.outputSteps.flatMap Step.modernActions = r.outputPorts.map .output := by
    rw [outputSteps, List.flatMap_map, List.map_eq_flatMap]
    rfl
  rw [steps, List.flatMap_append, List.flatMap_append, conditions, modern, flatMap_tagSteps, outputs, List.nil_append]

/-- The types of frames that the steps of a request give to the two forms of its draft. -/
theorem lastOf_types?_steps (r : Request) (inPort : UInt32) :
    lastOf Step.types? (r.steps inPort) =
      if r.popVlan then some (0x0806, 0x0800)
      else if r.mplsLabel ≠ none then some (0x8847, 0x8847)
      else if r.vlanVid ≠ none then some (0x0806, 0x0806)
      else none := by
  rw [lastOf_steps fun _ => rfl]
  unfold Step.types?
  cases r.popVlan <;> cases r.mplsLabel <;> cases r.vlanVid <;> simp [ethTypeArp, ethTypeIp, ethTypeMpls]

/-- The steps of a request make one rule for each of its types of frames under the later versions. -/
theorem rules_steps {version : Version} (later : version.hasPushVlan = true) (r : Request) {inPort : UInt32}
    (enters : r.inPort = some inPort) :
    (Draft.ofSteps version (r.steps inPort)).rules = r.ethTypes.map (r.ruleFor r.outputPorts) := by
  have rule : ∀ ethType, (⟨lastOf Step.priority? (r.steps inPort), Draft.modernMatch (r.steps inPort) ethType,
      (r.steps inPort).flatMap (Step.actions version)⟩ : Rule) = r.ruleFor r.outputPorts ethType := by
    intro ethType
    rw [(r.lastOf_steps_eq inPort).1, r.modernMatch_steps enters, r.actions_steps later]
    rfl
  rw [Draft.rules, r.forked_steps version]
  simp only [Draft.ofSteps, later, Bool.true_and, ↓reduceIte, rule, r.lastOf_types?_steps, ethTypes]
  by_cases pops : r.popVlan = true
  · rw [if_pos pops, if_pos pops, if_pos pops]
    rfl
  · rw [if_neg pops, if_neg pops, if_neg pops]
    split
    · rfl
    · split <;> rfl

/-- The ports that a request names for its output: those of its list, or its single port where it has no list or an
    empty one. -/
def LeavesBy (r : Request) (ports : List UInt32) : Prop :=
  ports ≠ [] ∧ (r.outPorts = some ports ∨
    (r.outPorts = none ∨ r.outPorts = some []) ∧ ∃ port, r.outPort = some port ∧ ports = [port])

theorem leavesBy_outputPorts {r : Request} (leaving : r.outputPorts ≠ []) : r.LeavesBy r.outputPorts := by
  refine ⟨leaving, ?_⟩
  rcases entry : r.outPorts with _ | _ | ⟨port, ports⟩
  case some.cons =>
    left
    rw [outputPorts, entry]
    rfl
  all_goals
    have single : r.outputPorts = r.outPort.toList := by
      rw [outputPorts, entry]
      rfl
    rw [single] at leaving ⊢
    right
    cases given : r.outPort with
    | none => exact absurd (by rw [given]; rfl) leaving
    | some port => exact ⟨by simp, port, rfl, rfl⟩

theorem setVlan_mem_tagActions {r : Request} {value : UInt32} :
    .setField "vlan_vid" value ∈ r.tagActions ↔
      ∃ id, (r.pushVlan = some id ∨ r.setVlan = some id) ∧ value = 0x1000 + id.toUInt32 := by
  simp [tagActions, or_and_right, exists_or, eq_comm (b := value)]

theorem setLabel_mem_tagActions {r : Request} {label : UInt32} :
    .setField "mpls_label" label ∈ r.tagActions ↔ r.pushMpls = some label := by
  simp [tagActions]

end Request

/-- A VLAN id is written with the bit above its twelve bits set. -/
theorem IsVlanId.written {id : UInt16} (usable : IsVlanId id) :
    0x1001 ≤ 0x1000 + id.toUInt32 ∧ 0x1000 + id.toUInt32 ≤ 0x1FFF ∧ (0x1000 + id.toUInt32) &&& 0xFFF = id.toUInt32 := by
  obtain ⟨low, high⟩ := usable
  have low : 1 ≤ id.toNat := UInt16.le_iff_toNat_le.mp low
  have high : id.toNat ≤ 4095 := UInt16.le_iff_toNat_le.mp high
  have value : (0x1000 + id.toUInt32).toNat = 0x1000 + id.toNat := by
    rw [UInt32.toNat_add, UInt16.toNat_toUInt32]
    show (0x1000 + id.toNat) % 2 ^ 32 = _
    omega
  refine ⟨?_, ?_, ?_⟩
  · rw [UInt32.le_iff_toNat_le, value]
    show 0x1001 ≤ _
    omega
  · rw [UInt32.le_iff_toNat_le, value]
    show _ ≤ 0x1FFF
    omega
  · rw [← UInt32.toNat_inj, UInt32.toNat_and, value, UInt16.toNat_toUInt32]
    show (0x1000 + id.toNat) &&& (2 ^ 12 - 1) = _
    rw [Nat.and_two_pow_sub_one_eq_mod]
    omega

/-- A request has two rules where a later version takes a tag off, and one rule otherwise. -/
theorem length_of_build {version : Version} {r : Request} {rules : List Rule} (built : build version r = .ok rules) :
    rules.length = if version.hasPushVlan ∧ r.popVlan then 2 else 1 := by
  obtain ⟨_, inPort, _, rfl⟩ := Request.rules_of_build built
  simp only [Draft.length_rules, r.forked_steps version, Bool.and_eq_true]

/-- A request that is built under a later version has an output, and a rule for each of its types of frames. -/
theorem rules_of_later {version : Version} {r : Request} {rules : List Rule} (later : version ≠ .v10)
    (built : build version r = .ok rules) :
    r.outputPorts ≠ [] ∧ rules = r.ethTypes.map (r.ruleFor r.outputPorts) := by
  have pushes : version.hasPushVlan = true := by
    cases version <;> first | rfl | exact absurd rfl later
  obtain ⟨leaving, inPort, enters, closed⟩ := Request.rules_of_build built
  exact ⟨leaving, by rw [closed, r.rules_steps pushes enters]⟩

/-- What the rules of a request say under the later versions: there is one for each of its types of frames, and all
    of them have its priority, its conditions and its actions, with the outputs behind the changes to the frame. A
    VLAN id is written into the lower twelve bits below a bit that is set, and every MPLS label has twenty bits. -/
theorem build_contents {version : Version} {r : Request} {rules : List Rule} (later : version ≠ .v10)
    (built : build version r = .ok rules) :
    ∃ ports, r.LeavesBy ports ∧ rules = r.ethTypes.map (r.ruleFor ports) ∧ ∀ rule ∈ rules,
      (∀ value, .setField "vlan_vid" value ∈ rule.actions → 0x1001 ≤ value ∧ value ≤ 0x1FFF ∧
        ∃ id, (r.pushVlan = some id ∨ r.setVlan = some id) ∧ value &&& 0xFFF = id.toUInt32) ∧
      ∀ label, (.setField "mpls_label" label ∈ rule.actions ∨ rule.conditions.mplsLabel = some label) →
        label ≤ 0xFFFFF := by
  obtain ⟨leaving, closed⟩ := rules_of_later later built
  obtain ⟨_, pushVlan, setVlan, mplsLabel, pushMpls⟩ := Request.check_ok_iff.mp (build_ok_iff.mp built).1
  refine ⟨r.outputPorts, Request.leavesBy_outputPorts leaving, closed, fun rule member => ?_⟩
  rw [closed] at member
  obtain ⟨ethType, _, rfl⟩ := List.mem_map.mp member
  have written : ∀ field value, .setField field value ∈ (r.ruleFor r.outputPorts ethType).actions →
      .setField field value ∈ r.tagActions := by
    intro field value set
    rcases List.mem_append.mp set with tag | output
    · exact tag
    · obtain ⟨port, _, same⟩ := List.mem_map.mp output
      cases same
  refine ⟨fun value set => ?_, fun label given => ?_⟩
  · obtain ⟨id, given, rfl⟩ := Request.setVlan_mem_tagActions.mp (written _ _ set)
    have usable : IsVlanId id := given.elim (pushVlan id) (setVlan id)
    obtain ⟨least, most, low⟩ := usable.written
    exact ⟨least, most, id, given, low⟩
  · rcases given with set | matched
    · exact pushMpls label (Request.setLabel_mem_tagActions.mp (written _ _ set))
    · exact mplsLabel label matched

/-- A request for labelled and tagged frames that takes a tag off, puts two others on and sends out of two ports. -/
def relabelRequest : Request :=
  { Request.forward 1 2 3 9 with
    outPorts := some [4, 5], vlanVid := some 200, mplsLabel := some 102, pushVlan := some 4095, setVlan := some 7,
    popVlan := true, pushMpls := some 0xFFFFF, popMpls := true }

/-- Taking the tag off decides the types of frames, and both rules have all actions in their order. -/
theorem build_contents_relabel :
    Version.v12 ≠ .v10 ∧ ∃ arp ip, build .v12 relabelRequest = .ok [arp, ip] ∧
      arp.conditions.ethType = some 0x0806 ∧ ip.conditions.ethType = some 0x0800 ∧
      ip.conditions.mplsLabel = some 102 ∧ arp.actions = ip.actions ∧
      ip.actions = [.pushVlan 0x8100, .setField "vlan_vid" 0x1FFF, .popVlan, .setField "vlan_vid" 0x1007,
        .pushMpls 0x8847, .setField "mpls_label" 0xFFFFF, .popMpls 0x0806, .output 4, .output 5] ∧
      ∃ id, (relabelRequest.pushVlan = some id ∨ relabelRequest.setVlan = some id) ∧
        0x1FFF &&& 0xFFF = id.toUInt32 := by
  have later : Version.v12 ≠ .v10 := by decide
  obtain ⟨rules, built⟩ : ∃ rules, build .v12 relabelRequest = .ok rules := ⟨_, rfl⟩
  obtain ⟨ports, ⟨_, leaving⟩, closed, each⟩ := build_contents later built
  have list : ports = [4, 5] := by
    rcases leaving with same | ⟨none | empty, _⟩
    · exact (Option.some.inj same).symm
    · cases none
    · cases empty
  subst list
  obtain ⟨tags, _⟩ := each (relabelRequest.ruleFor [4, 5] (some 0x0800)) (by rw [closed]; decide)
  obtain ⟨_, _, written⟩ := tags 0x1FFF (by decide)
  refine ⟨later, relabelRequest.ruleFor [4, 5] (some 0x0806), relabelRequest.ruleFor [4, 5] (some 0x0800), ?_, rfl, rfl,
    rfl, rfl, rfl, written⟩
  rw [built, closed]
  rfl

/-! ### Labelled frames -/

/-- The rules of a request under the later versions match the MPLS label that the request names. They match the type
    of labelled frames beside it unless the request takes a VLAN tag off: then one rule is for ARP and one for IP,
    and none is for labelled frames. -/
theorem build_labelled {version : Version} {r : Request} {rules : List Rule} (later : version ≠ .v10)
    (built : build version r = .ok rules) :
    (∀ rule ∈ rules, rule.conditions.mplsLabel = r.mplsLabel) ∧
      ((∀ rule ∈ rules, rule.conditions.mplsLabel ≠ none → rule.conditions.ethType = some 0x8847) ↔
        ¬ (r.mplsLabel ≠ none ∧ r.popVlan = true)) ∧
      (r.popVlan = true → rules.map (fun rule => rule.conditions.ethType) = [some 0x0806, some 0x0800]) := by
  obtain ⟨_, closed⟩ := rules_of_later later built
  subst closed
  simp only [List.forall_mem_map]
  refine ⟨fun _ _ => rfl, ?_, fun pops => ?_⟩
  · show (∀ ethType ∈ r.ethTypes, r.mplsLabel ≠ none → ethType = some 0x8847) ↔ _
    unfold Request.ethTypes
    by_cases pops : r.popVlan = true
    · rw [if_pos pops]
      constructor
      · rintro each ⟨label, _⟩
        have arp := each (some 0x0806) List.mem_cons_self label
        exact absurd arp (by decide)
      · exact fun absent _ _ label => absurd ⟨label, pops⟩ absent
    · rw [if_neg pops]
      refine iff_of_true (fun ethType member label => ?_) fun both => pops both.2
      rw [if_pos label, List.mem_singleton] at member
      exact member
  · rw [List.map_map, Request.ethTypes, if_pos pops]
    rfl

/-- A request for labelled frames that takes a VLAN tag off. -/
def untagRequest : Request :=
  { Request.forward 1 1 2 0 with priority := none, mplsLabel := some 102, popVlan := true }

/-- Without a tag to take off, a label is matched on labelled frames. -/
theorem build_labelled_alone :
    Version.v13 ≠ .v10 ∧ ∃ rules, build .v13 { untagRequest with popVlan := false } = .ok rules ∧ rules.length = 1 ∧
      ∀ rule ∈ rules, rule.conditions.mplsLabel = some 102 ∧ rule.conditions.ethType = some 0x8847 := by
  have later : Version.v13 ≠ .v10 := by decide
  obtain ⟨rules, built⟩ : ∃ rules, build .v13 { untagRequest with popVlan := false } = .ok rules := ⟨_, rfl⟩
  obtain ⟨label, types, _⟩ := build_labelled later built
  refine ⟨later, rules, built, ?_, fun rule member => ⟨label rule member, ?_⟩⟩
  · cases built
    rfl
  · exact types.mpr (by decide) rule member (by rw [label rule member]; decide)

/-- With a tag to take off, a label is matched on ARP frames and on IP frames. -/
theorem not_labelled_untag :
    ∃ arp ip, build .v13 untagRequest = .ok [arp, ip] ∧
      arp.conditions.mplsLabel = some 102 ∧ arp.conditions.ethType = some 0x0806 ∧
      ip.conditions.mplsLabel = some 102 ∧ ip.conditions.ethType = some 0x0800 ∧
      ¬ ∀ rule ∈ [arp, ip], rule.conditions.mplsLabel ≠ none → rule.conditions.ethType = some 0x8847 :=
  ⟨_, _, rfl, rfl, rfl, rfl, rfl, by decide⟩

end PatchPanel
