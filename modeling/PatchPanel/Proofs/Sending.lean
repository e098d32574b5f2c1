import PatchPanel.Proofs.Addressing
import PatchPanel.Proofs.Contents
import PatchPanel.Proofs.Utf8

/-!
Compiled rules and flow modifications are two loops over the same requests. They fail together, and otherwise the
flow modifications are the rules switch by switch, each with the datapath id of its switch
(`Panel.flowMods_agree`). That this id is one for all messages of a switch rests on who the requests are for
(`Panel.served_of_requests`), and that no rule is taken for a dropping rule on what a request is built to in closed
form (`Request.rules_of_build`).
-/
namespace PatchPanel

/-! ### Rules that are no dropping rules -/

theorem Step.output_mem_actions (version : Version) (port : UInt32) :
    Action.output port ∈ (Step.output port).actions version := by
  unfold actions
  cases version.hasPushVlan <;> exact List.mem_cons_self

/-- A rule that a request is built to has a condition and an action, so it is no dropping rule. -/
theorem not_drop_of_build {version : Version} {r : Request} {rules : List Rule} (built : build version r = .ok rules)
    {rule : Rule} (member : rule ∈ rules) : rule.isDrop = false ∧ rule.conditions.isAny = false := by
  obtain ⟨leaving, inPort, _, rfl⟩ := Request.rules_of_build built
  obtain ⟨_, acts, ethType, conditions⟩ := Draft.of_mem_rules_ofSteps member
  have enters : rule.conditions.inPort = some inPort := by
    rw [conditions, Draft.inPort_matchOf, (r.lastOf_steps_eq inPort).2.1]
  obtain ⟨port, others, outputs⟩ := List.exists_cons_of_ne_nil leaving
  have output : Action.output port ∈ rule.actions := by
    rw [acts]
    refine List.mem_flatMap.mpr ⟨.output port, List.mem_append_right _ ?_, Step.output_mem_actions version port⟩
    rw [Request.outputSteps, outputs]
    exact List.mem_cons_self
  constructor
  · rw [Rule.isDrop, List.isEmpty_eq_false_iff]
    exact List.ne_nil_of_mem output
  · rw [Match.isAny, decide_eq_false_iff_not]
    intro any
    rw [any] at enters
    cases enters

/-! ### The two loops -/

/-- The datapath id of the node of a name. -/
def Topology.datapathId (t : Topology) (name : String) : UInt64 := ((t.node? name).map Node.datapathId).getD 0

namespace Panel

/-- The message with a rule for the switch of a name. -/
def send (p : Panel) (command : Command) (name : String) (rule : Rule) : FlowMod :=
  ⟨name, p.topology.datapathId name, command, rule⟩

section
variable {version : Version} {command : Command}

theorem flowModsOfAll_append {es fs : List (String × Request)} {mods more : List FlowMod}
    (first : flowModsOfAll version command es = .ok mods) (later : flowModsOfAll version command fs = .ok more) :
    flowModsOfAll version command (es ++ fs) = .ok (mods ++ more) := by
  induction es generalizing mods with
  | nil =>
    cases first
    exact later
  | cons e es ih =>
    simp only [flowModsOfAll, bind_eq_ok_iff, pure_eq_ok, Except.ok.injEq] at first
    obtain ⟨own, made, others, rest, rfl⟩ := first
    rw [List.cons_append, flowModsOfAll, made, ih rest, List.append_assoc]
    rfl

/-- The messages of one switch are the rules that are built of its requests, in their order. -/
theorem flowModsOfAll_of_buildAll {name : String} {dpid : UInt64} {rs : List Request} {rules : List Rule}
    (built : buildAll version rs = .ok rules) (served : ∀ r ∈ rs, r.dpid = dpid) :
    flowModsOfAll version command (rs.map fun r => (name, r)) =
      .ok (rules.map fun rule => ⟨name, dpid, command, rule⟩) := by
  induction rs generalizing rules with
  | nil =>
    cases built
    rfl
  | cons r rs ih =>
    simp only [buildAll, bind_eq_ok_iff, pure_eq_ok, Except.ok.injEq] at built
    obtain ⟨first, own, more, rest, rfl⟩ := built
    obtain ⟨ofFirst, others⟩ := List.forall_mem_cons.mp served
    rw [List.map_cons, flowModsOfAll, flowModsOf, own, ih rest others, List.map_append, ← ofFirst]
    rfl

/-- The messages of all switches are those of one after the other. -/
theorem flowModsOfAll_of_entries {p : Panel} {entries : List (String × List Request)}
    {built : List (String × List Rule)}
    (each : List.Forall₂ (fun e b => b.1 = e.1 ∧ buildAll version e.2 = .ok b.2) entries built)
    (served : ∀ e ∈ entries, ∀ r ∈ e.2, r.dpid = p.topology.datapathId e.1) :
    flowModsOfAll version command (entries.flatMap fun e => e.2.map fun r => (e.1, r)) =
      .ok (built.flatMap fun b => b.2.map (p.send command b.1)) := by
  induction each with
  | nil => rfl
  | cons here _ ih =>
    obtain ⟨ofFirst, others⟩ := List.forall_mem_cons.mp served
    rw [List.flatMap_cons, List.flatMap_cons]
    refine flowModsOfAll_append ?_ (ih others)
    rw [flowModsOfAll_of_buildAll here.2 ofFirst, here.1]
    rfl

end

/-! ### The dropping rules -/

theorem denyMods_eq {p : Panel} (sound : p.topology.Sound) (command : Command) :
    p.denyMods command = p.topology.switches.names.map fun name => p.send command name .defaultDeny := by
  rw [denyMods, Index.values, Index.names, List.map_map, List.map_map]
  refine List.map_congr_left fun e member => ?_
  have switch := Index.get?_eq_some_iff.mpr member
  have found := sound.node?_eq_some_iff.mpr (.inl switch)
  simp [send, Topology.datapathId, found, (sound.switches e.1 e.2 switch).called]

/-- A switch has one dropping rule. -/
theorem filter_denyMods {p : Panel} (sound : p.topology.Sound) (command : Command) {name : String}
    (switch : name ∈ p.topology.switches.names) :
    (p.denyMods command).filter (fun m => m.switch = name) = [p.send command name .defaultDeny] := by
  have once : p.topology.switches.names.count name = 1 := List.count_eq_one_of_mem p.topology.switches.nodup switch
  have alone : p.topology.switches.names.filter (fun other => other = name) = [name] := by
    rw [List.filter_eq, once]
    rfl
  rw [denyMods_eq sound, List.filter_map]
  exact congrArg _ alone

/-- The dropping rules are for the switches of the file, in its order. -/
theorem denyMods_of_ofFile {file : TopologyFile} {p : Panel} (read : Topology.ofFile file = .ok p.topology)
    (command : Command) : ∃ switches, file.switches = some switches ∧
      p.denyMods command = switches.entries.map fun e => ⟨e.1, e.2.datapathId, command, .defaultDeny⟩ := by
  obtain ⟨s, sections, _, resolves⟩ := Topology.ofFile_ok_iff.mp read
  obtain ⟨links, _, rfl⟩ := TopologySections.ofFile_ok_iff.mp sections
  refine ⟨s.switches, rfl, ?_⟩
  rw [denyMods, Index.values, List.map_map]
  refine map_eq_of_forall₂ (Index.traverse_ok_iff.mp resolves.switches) fun e n here => ?_
  obtain ⟨_, _, same⟩ := TopologySections.resolveNode_ok_iff.mp here.2
  simp [← same]

/-! ### Rules and messages -/

/-- Messages send the rules of all switches: switch by switch in the order of the bytes of the names, each rule in
    its place with the datapath id of the node of the name. None of them is a dropping rule. -/
structure Sends (p : Panel) (command : Command) (k : RuleMap) (mods : List FlowMod) : Prop where
  inOrder : mods = k.entries.flatMap fun e => e.2.map (p.send command e.1)
  byBytes : k.names.Pairwise fun a b => utf8Bytes a < utf8Bytes b
  nodes : ∀ name ∈ k.names, ∃ n, p.topology.node? name = some n
  noDrop : ∀ mod ∈ mods, mod.rule.isDrop = false ∧ mod.rule.conditions.isAny = false

section
variable {version : Version} {topology : TopologyFile} {wires : WireFile} {p : Panel} {selection : Selection}
  {m : RequestMap}

/-- What is sent for the requests of a panel are the rules that they are built to. -/
theorem sends_of_requests (read : ofFiles version topology wires = .ok p) (made : p.requests selection = .ok m)
    (command : Command) : ∃ k mods, p.rules selection = .ok k ∧
      (∀ deny, p.flowMods selection command deny = .ok ((if deny then p.denyMods command else []) ++ mods)) ∧
      p.Sends command k mods := by
  obtain ⟨k, compiled, names, lists⟩ := rules_of_requests (sound_of_ofFiles read).1 made
  obtain ⟨_, again, traversed⟩ := rules_ok_iff.mp compiled
  cases made.symm.trans again
  have served : ∀ e ∈ m.entries, ∀ r ∈ e.2, r.dpid = p.topology.datapathId e.1 := by
    intro e member r listed
    obtain ⟨n, found, serves⟩ := served_of_requests read made (List.mem_map_of_mem member)
    rw [SwitchMap.listOf, SwitchMap.get?_eq_some_iff.mpr member] at serves
    rw [(serves r listed).dpid, Topology.datapathId, found]
    rfl
  have all : flowModsOfAll p.wiring.version command m.toList =
      .ok (k.entries.flatMap fun e => e.2.map (p.send command e.1)) :=
    flowModsOfAll_of_entries (SwitchMap.traverse_ok_iff.mp traversed) served
  refine ⟨k, _, compiled, fun deny => ?_, rfl, ?_, fun name named => ?_, fun mod member => ?_⟩
  · simp [flowMods, made, all, Except.mapError]
  · exact k.names_pairwise.imp lt_iff_utf8Bytes_lt.mp
  · obtain ⟨n, found, _⟩ := served_of_requests read made (names ▸ named)
    exact ⟨n, found⟩
  · obtain ⟨e, inside, sent⟩ := List.mem_flatMap.mp member
    obtain ⟨rule, listed, rfl⟩ := List.mem_map.mp sent
    obtain ⟨parts, each, same⟩ := buildAll_ok_iff.mp (lists e.1)
    rw [SwitchMap.listOf, SwitchMap.get?_eq_some_iff.mpr inside, Option.getD_some] at same
    rw [same] at listed
    obtain ⟨part, made, own⟩ := List.mem_flatten.mp listed
    obtain ⟨r, _, built⟩ := exists_left_of_forall₂ each made
    exact not_drop_of_build built own

theorem dpid_of_sends {command : Command} {k : RuleMap} {mods : List FlowMod} (sends : p.Sends command k mods)
    {mod : FlowMod} (member : mod ∈ mods) : mod.dpid = p.topology.datapathId mod.switch := by
  rw [sends.inOrder] at member
  obtain ⟨e, _, sent⟩ := List.mem_flatMap.mp member
  obtain ⟨rule, _, rfl⟩ := List.mem_map.mp sent
  rfl

end

/-- Flow modifications and compiled rules agree. They have the same faults, and without dropping rules the messages
    send the rules. With dropping rules these come first, one for each switch in the order of the file, so all
    messages for one switch have one datapath id, and a switch with a message has one message that drops. -/
theorem flowMods_agree {version : Version} {topology : TopologyFile} {wires : WireFile} {p : Panel}
    (read : ofFiles version topology wires = .ok p) (selection : Selection) (command : Command) :
    (∀ deny fault, p.flowMods selection command deny = .error fault ↔ p.rules selection = .error fault) ∧
    (∀ k, p.rules selection = .ok k → ∃ mods, p.Sends command k mods ∧
      p.flowMods selection command false = .ok mods ∧
      p.flowMods selection command true = .ok (p.denyMods command ++ mods) ∧
      (∀ mod ∈ p.denyMods command ++ mods, mod.dpid = p.topology.datapathId mod.switch) ∧
      ∀ mod ∈ mods, mod.switch ∈ p.topology.switches.names →
        (p.denyMods command ++ mods).filter (fun other => other.switch = mod.switch ∧ other.rule.isDrop) =
          [⟨mod.switch, mod.dpid, command, .defaultDeny⟩]) ∧
    ∃ switches, topology.switches = some switches ∧
      p.denyMods command = switches.entries.map fun e => ⟨e.1, e.2.datapathId, command, .defaultDeny⟩ := by
  obtain ⟨_, readTopology, _, _⟩ := ofFiles_ok_iff.mp read
  have sound := Topology.sound_of_ofFile readTopology
  refine ⟨?_, ?_, denyMods_of_ofFile readTopology command⟩
  · intro deny fault
    cases requested : p.requests selection with
    | error cause => simp [rules, flowMods, requested, Except.mapError]
    | ok m =>
      obtain ⟨k, mods, compiled, sent, _⟩ := sends_of_requests read requested command
      simp [compiled, sent]
  · intro k compiled
    obtain ⟨m, made, _⟩ := rules_ok_iff.mp compiled
    obtain ⟨_, mods, again, sent, sends⟩ := sends_of_requests read made command
    cases compiled.symm.trans again
    have denied : ∀ mod ∈ p.denyMods command, mod = p.send command mod.switch .defaultDeny := by
      intro mod member
      rw [denyMods_eq sound] at member
      obtain ⟨name, _, rfl⟩ := List.mem_map.mp member
      rfl
    refine ⟨mods, sends, sent false, sent true, fun mod member => ?_, fun mod member switch => ?_⟩
    · rcases List.mem_append.mp member with deny | rule
      · rw [denied mod deny]
        rfl
      · exact dpid_of_sends sends rule
    · have drops : (p.denyMods command).filter (fun other => other.switch = mod.switch ∧ other.rule.isDrop) =
          (p.denyMods command).filter fun other => other.switch = mod.switch := by
        refine List.filter_congr fun other deny => ?_
        have drop : other.rule.isDrop = true := by
          rw [denied other deny]
          rfl
        simp [drop]
      have none : mods.filter (fun other => other.switch = mod.switch ∧ other.rule.isDrop) = [] := by
        refine List.filter_eq_nil_iff.mpr fun other rule => ?_
        simp [(sends.noDrop other rule).1]
      rw [List.filter_append, drops, none, filter_denyMods sound command switch, List.append_nil,
        dpid_of_sends sends member]
      rfl

/-- The wires over two switches: both are told to drop first, and no rule of theirs drops. -/
theorem flowMods_agree_trunk :
    ∃ p k mods, ofFiles .v13 trunkFile trunkWires = .ok p ∧ p.rules .all = .ok k ∧ p.Sends .put k mods ∧
      mods.length = 20 ∧ p.flowMods .all .put true =
        .ok (⟨"s1", 1, .put, .defaultDeny⟩ :: ⟨"s2", 2, .put, .defaultDeny⟩ :: mods) := by
  obtain ⟨p, read⟩ : ∃ p, ofFiles .v13 trunkFile trunkWires = .ok p := ⟨_, rfl⟩
  obtain ⟨k, compiled⟩ : ∃ k, p.rules .all = .ok k := by cases read; exact ⟨_, rfl⟩
  obtain ⟨_, sent, switches, listed, denied⟩ := flowMods_agree read .all .put
  obtain ⟨mods, sends, _, all, _⟩ := sent k compiled
  refine ⟨p, k, mods, read, compiled, sends, ?_, ?_⟩
  · rw [sends.inOrder]
    cases read
    cases compiled
    rfl
  · rw [all, denied]
    cases listed
    rfl

end Panel
end PatchPanel
