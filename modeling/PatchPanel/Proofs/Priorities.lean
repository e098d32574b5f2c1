import PatchPanel.Proofs.Compiling
import PatchPanel.Proofs.Contents

/-!
The priorities of a switch's requests in their order. They come in blocks: those of the exclusive wires
first, and then for each group those of its wires and behind them those of its broadcasts
(`Panel.requests_by_priority`). So a broadcast of one group may stand before a shared request of the next,
and the priorities of a switch fall all the way exactly where this does not happen. Rules have the
priorities of the requests that they are built for.
-/
namespace PatchPanel

/-- No priority is above one that stands before it. -/
def Descending (priorities : List (Option UInt16)) : Prop :=
  priorities.Pairwise fun before after => ∀ high ∈ before, ∀ low ∈ after, low ≤ high

/-- Two priorities are compared where both are there. -/
instance decidableNotAbove :
    DecidableRel fun before after : Option UInt16 => ∀ high ∈ before, ∀ low ∈ after, low ≤ high
  | some high, some low => decidable_of_iff (low ≤ high) (by simp)
  | none, _ => .isTrue nofun
  | some _, none => .isTrue fun _ _ => nofun

instance (priorities : List (Option UInt16)) : Decidable (Descending priorities) :=
  inferInstanceAs (Decidable (priorities.Pairwise _))

section
variable {α : Type}

/-- Blocks of one priority each descend where the priorities of the blocks that are not empty do. -/
theorem descending_blocks (origins : List α) (size : α → Nat) (priority : α → UInt16) :
    Descending (origins.flatMap fun o => List.replicate (size o) (some (priority o))) ↔
      origins.Pairwise fun o later => size o ≠ 0 → size later ≠ 0 → priority later ≤ priority o := by
  rw [Descending, List.pairwise_flatMap]
  have inside : ∀ o ∈ origins, (List.replicate (size o) (some (priority o))).Pairwise
      fun before after => ∀ high ∈ before, ∀ low ∈ after, low ≤ high := by
    intro o _
    refine List.pairwise_replicate.mpr (.inr fun high ofHigh low ofLow => ?_)
    cases ofHigh
    cases ofLow
    exact UInt16.le_refl _
  rw [and_iff_right inside]
  refine List.Pairwise.iff fun {o later} => ?_
  simp only [List.mem_replicate, and_imp]
  constructor
  · intro each some others
    exact each _ some rfl _ others rfl _ rfl _ rfl
  · rintro below _ some rfl _ others rfl high ofHigh low ofLow
    cases ofHigh
    cases ofLow
    exact below some others

theorem flatMap_replicate (xs : List α) (size : α → Nat) {β : Type} (value : β) :
    (xs.flatMap fun x => List.replicate (size x) value) = List.replicate (xs.map size).sum value := by
  induction xs with
  | nil => rfl
  | cons x xs ih => rw [List.flatMap_cons, ih, List.replicate_append_replicate, List.map_cons, List.sum_cons]

end

/-! ### The priority of what is emitted -/

namespace Wire

/-- The priority of all requests of a wire. -/
def priority (w : Wire) : UInt16 :=
  match w.mode with
  | .exclusive => exclusivePriority
  | .shared => sharedPriority

theorem priority_of_profile {w : Wire} {p : Profile} (made : w.profile = .ok p) : p.priority = w.priority := by
  unfold priority
  cases mode : w.mode with
  | exclusive => rw [profile_exclusive made mode]
  | shared =>
    obtain ⟨_, _, _, _, rfl⟩ := profile_shared made mode
    rfl

theorem priority_of_emissions {w : Wire} {es : List Emission} (emitted : w.emissions = .ok es) :
    ∀ e ∈ es, e.2.priority = some w.priority := by
  intro e member
  obtain ⟨p, direction, _, _, a, b, made, _, _, _, _, rfl⟩ := exists_between_of_emissions emitted member
  rw [← priority_of_profile made]
  cases direction <;> rfl

end Wire

theorem Group.priority_of_emitBroadcast {g : Group} {w : Wire} {ports : List UInt32} {es : List Emission}
    (emitted : g.emitBroadcast w ports = .ok es) : ∀ e ∈ es, e.2.priority = some broadcastPriority := by
  intro e member
  obtain ⟨dut, hs, _, _, each⟩ := emitBroadcast_ok_iff.mp emitted
  obtain ⟨h, _, node, request⟩ := exists_left_of_forall₂ each member
  exact (carriesAt_of_request node request).priority

namespace Wiring

/-- The priority of all requests of an origin. -/
def priorityOf (w : Wiring) : Origin → UInt16
  | .wire name => ((w.wires.get? name).map Wire.priority).getD 0
  | .broadcast _ => broadcastPriority

theorem Emitted.priority {w : Wiring} {origins : List Origin} {parts : List (Origin × List Emission)}
    (emitted : w.Emitted origins parts) {part : Origin × List Emission} (member : part ∈ parts) :
    ∀ e ∈ part.2, e.2.priority = some (w.priorityOf part.1) := by
  obtain ⟨origin, es⟩ := part
  have given := emitted.each _ member
  cases origin with
  | wire name =>
    obtain ⟨wire, found, made⟩ := emitted?_wire.mp given
    simpa [priorityOf, found] using Wire.priority_of_emissions made
  | broadcast g =>
    obtain ⟨_, _, _, _, made⟩ := emitted?_broadcast.mp given
    exact Group.priority_of_emitBroadcast made

/-- The requests of a switch have, origin by origin, as many times its priority as it has hops there. -/
theorem Emitted.priorities {w : Wiring} {origins : List Origin} {parts : List (Origin × List Emission)}
    (emitted : w.Emitted origins parts) (switch : String) :
    (valuesFor switch (parts.flatMap Prod.snd)).map Request.priority =
      origins.flatMap fun o => List.replicate ((w.nodesOf o).count switch) (some (w.priorityOf o)) := by
  have block : ∀ part ∈ parts, (valuesFor switch part.2).map Request.priority =
      List.replicate ((w.nodesOf part.1).count switch) (some (w.priorityOf part.1)) := by
    intro part member
    refine List.eq_replicate_iff.mpr ⟨?_, fun priority listed => ?_⟩
    · rw [List.length_map, length_valuesFor, (emitted.nodes member).1]
    · obtain ⟨r, own, rfl⟩ := List.mem_map.mp listed
      exact emitted.priority member _ (mem_valuesFor.mp own)
  rw [← emitted.inOrder, List.flatMap_map]
  clear emitted
  induction parts with
  | nil => rfl
  | cons part parts ih =>
    obtain ⟨here, others⟩ := List.forall_mem_cons.mp block
    rw [List.flatMap_cons, valuesFor_append, List.map_append, here, ih others, List.flatMap_cons]

theorem Sound.priorityOf_exclusive {w : Wiring} (sound : w.Sound) {wire : Wire} (member : wire ∈ w.exclusiveWires) :
    w.priorityOf (.wire wire.name) = exclusivePriority := by
  obtain ⟨value, exclusive⟩ := List.mem_filter.mp member
  have mode : wire.mode = .exclusive := by simpa [Wire.isExclusive] using exclusive
  simp [priorityOf, sound.get?_name value, Wire.priority, mode]

theorem Sound.priorityOf_shared {w : Wiring} (sound : w.Sound) {g : Group} (member : g ∈ w.groups.values)
    {name : String} (listed : name ∈ g.wires) : w.priorityOf (.wire name) = sharedPriority := by
  obtain ⟨wire, found, mode⟩ := sound.groupWires g member name listed
  simp [priorityOf, found, Wire.priority, mode]

/-- The first of two groups has no broadcasts on a switch where the second has a wire. -/
def Yields (w : Wiring) (switch : String) (g later : Group) : Prop :=
  switch ∈ w.nodesOf (.broadcast g) → ∀ name ∈ later.wires, switch ∉ w.nodesOf (.wire name)

theorem priorityOf_le_exclusive (w : Wiring) (origin : Origin) : w.priorityOf origin ≤ exclusivePriority := by
  have all : ∀ priority, priority = 0 ∨ priority = broadcastPriority ∨ priority = sharedPriority ∨
      priority = exclusivePriority → priority ≤ exclusivePriority := by
    rintro priority (rfl | rfl | rfl | rfl) <;> decide
  apply all
  cases origin with
  | broadcast g => exact .inr (.inl rfl)
  | wire name =>
    cases found : w.wires.get? name with
    | none => exact .inl (by simp [priorityOf, found])
    | some wire => cases mode : wire.mode <;> simp [priorityOf, found, Wire.priority, mode]

theorem Sound.mem_origins_of_group {w : Wiring} (sound : w.Sound) {g : Group} (member : g ∈ w.groups.values)
    {origin : Origin} (own : origin ∈ g.origins) :
    (∃ name ∈ g.wires, origin = .wire name ∧ w.priorityOf origin = sharedPriority) ∨
      origin = .broadcast g ∧ w.priorityOf origin = broadcastPriority := by
  rcases List.mem_append.mp own with wire | broadcast
  · obtain ⟨name, listed, rfl⟩ := List.mem_map.mp wire
    exact .inl ⟨name, listed, rfl, sound.priorityOf_shared member listed⟩
  · rw [List.mem_singleton.mp broadcast]
    exact .inr ⟨rfl, rfl⟩

theorem broadcastPriority_lt_shared : broadcastPriority < sharedPriority := by decide

/-- Between two groups, priorities fall unless a broadcast of the first stands before a wire of the second. -/
theorem Sound.descends_iff_yields {w : Wiring} (sound : w.Sound) {g later : Group} (member : g ∈ w.groups.values)
    (laterMember : later ∈ w.groups.values) (switch : String) :
    (∀ o ∈ g.origins, ∀ o' ∈ later.origins, switch ∈ w.nodesOf o → switch ∈ w.nodesOf o' →
      w.priorityOf o' ≤ w.priorityOf o) ↔ w.Yields switch g later := by
  constructor
  · intro falls broadcasts name listed inside
    have own : Origin.broadcast g ∈ g.origins := List.mem_append_right _ (List.mem_singleton_self _)
    have laterOwn : Origin.wire name ∈ later.origins := List.mem_append_left _ (List.mem_map_of_mem listed)
    have below := falls _ own _ laterOwn broadcasts inside
    rw [sound.priorityOf_shared laterMember listed] at below
    exact absurd broadcastPriority_lt_shared (UInt16.not_lt.mpr below)
  · intro yields o own o' laterOwn inside laterInside
    rcases sound.mem_origins_of_group member own with ⟨name, _, rfl, shared⟩ | ⟨rfl, broadcast⟩
    · rw [shared]
      rcases sound.mem_origins_of_group laterMember laterOwn with ⟨_, _, _, same⟩ | ⟨_, same⟩
      · rw [same]
        exact UInt16.le_refl _
      · rw [same]
        exact UInt16.le_of_lt broadcastPriority_lt_shared
    · rcases sound.mem_origins_of_group laterMember laterOwn with ⟨name, listed, rfl, _⟩ | ⟨_, same⟩
      · exact absurd laterInside (yields inside name listed)
      · rw [broadcast, same]
        exact UInt16.le_refl _

theorem origins_all (w : Wiring) :
    w.origins .all = (w.exclusiveWires.map fun wire => .wire wire.name) ++ w.groups.values.flatMap Group.origins := rfl

/-- Along all origins, priorities fall on a switch exactly where every group yields to the groups behind it. -/
theorem Sound.pairwise_origins_iff {w : Wiring} (sound : w.Sound) (switch : String) :
    ((w.origins .all).Pairwise fun o later => switch ∈ w.nodesOf o → switch ∈ w.nodesOf later →
      w.priorityOf later ≤ w.priorityOf o) ↔ w.groups.values.Pairwise (w.Yields switch) := by
  have first : ∀ o ∈ w.exclusiveWires.map (fun wire => Origin.wire wire.name), ∀ later,
      switch ∈ w.nodesOf o → switch ∈ w.nodesOf later → w.priorityOf later ≤ w.priorityOf o := by
    intro o member later _ _
    obtain ⟨wire, exclusive, rfl⟩ := List.mem_map.mp member
    rw [sound.priorityOf_exclusive exclusive]
    exact w.priorityOf_le_exclusive later
  have inGroup : ∀ g ∈ w.groups.values, g.origins.Pairwise fun o later =>
      switch ∈ w.nodesOf o → switch ∈ w.nodesOf later → w.priorityOf later ≤ w.priorityOf o := by
    intro g member
    -- All but the last origin of a group are wires, which have one priority.
    refine List.pairwise_append.mpr ⟨?_, List.pairwise_singleton _ _, ?_⟩
    · refine List.pairwise_map.mpr (List.pairwise_of_forall_mem_list fun a ofA b ofB _ _ => ?_)
      rw [sound.priorityOf_shared member ofA, sound.priorityOf_shared member ofB]
      exact UInt16.le_refl _
    · intro o wire later broadcast _ _
      obtain ⟨name, listed, rfl⟩ := List.mem_map.mp wire
      rw [sound.priorityOf_shared member listed, List.mem_singleton.mp broadcast]
      exact UInt16.le_of_lt broadcastPriority_lt_shared
  have between := List.Pairwise.iff_of_mem fun {g later : Group} (member : g ∈ w.groups.values)
    (laterMember : later ∈ w.groups.values) => sound.descends_iff_yields member laterMember switch
  rw [origins_all, List.pairwise_append, List.pairwise_flatMap, between]
  constructor
  · rintro ⟨_, ⟨_, groups⟩, _⟩
    exact groups
  · intro groups
    refine ⟨?_, ⟨inGroup, groups⟩, fun o member later _ => first o member later⟩
    exact List.pairwise_of_forall_mem_list fun o member later _ => first o member later

/-- The requests of a group on a switch: those of its wires, and then its broadcasts. -/
theorem Sound.priorities_of_group {w : Wiring} (sound : w.Sound) {g : Group} (member : g ∈ w.groups.values)
    (switch : String) :
    (g.origins.flatMap fun o => List.replicate ((w.nodesOf o).count switch) (some (w.priorityOf o))) =
      List.replicate ((g.wires.flatMap fun name => w.nodesOf (.wire name)).count switch) (some sharedPriority) ++
        List.replicate ((w.nodesOf (.broadcast g)).count switch) (some broadcastPriority) := by
  have wires : (g.wires.flatMap fun name =>
      List.replicate ((w.nodesOf (.wire name)).count switch) (some (w.priorityOf (.wire name)))) =
      g.wires.flatMap fun name => List.replicate ((w.nodesOf (.wire name)).count switch) (some sharedPriority) := by
    rw [List.flatMap_def, List.flatMap_def]
    congr 1
    refine List.map_congr_left fun name listed => ?_
    rw [sound.priorityOf_shared member listed]
  rw [Group.origins, List.flatMap_append, List.flatMap_map, wires, flatMap_replicate, List.count_flatMap]
  simp only [List.flatMap_cons, List.flatMap_nil, List.append_nil]
  rfl

/-- The requests of the exclusive wires on a switch. -/
theorem Sound.priorities_of_exclusiveWires {w : Wiring} (sound : w.Sound) (switch : String) :
    ((w.exclusiveWires.map fun wire => Origin.wire wire.name).flatMap fun o =>
      List.replicate ((w.nodesOf o).count switch) (some (w.priorityOf o))) =
      List.replicate ((w.exclusiveWires.flatMap fun wire => w.nodesOf (.wire wire.name)).count switch)
        (some exclusivePriority) := by
  rw [List.count_flatMap, ← flatMap_replicate, List.flatMap_map, List.flatMap_def, List.flatMap_def]
  congr 1
  refine List.map_congr_left fun wire member => ?_
  rw [sound.priorityOf_exclusive member]
  rfl

end Wiring

/-! ### The priority of rules -/

/-- A request is built to at least one rule, and its rules have its priority. -/
theorem priority_of_build {version : Version} {r : Request} {rules : List Rule} (built : build version r = .ok rules) :
    rules ≠ [] ∧ ∀ rule ∈ rules, rule.priority = r.priority := by
  obtain ⟨_, inPort, _, rfl⟩ := Request.rules_of_build built
  refine ⟨?_, fun rule member => ?_⟩
  · rw [← List.length_pos_iff, Draft.length_rules]
    split <;> omega
  · rw [(Draft.of_mem_rules_ofSteps member).1, (r.lastOf_steps_eq inPort).1]

section
variable {rs : List Request} {parts : List (List Rule)}

/-- The rules that requests are built to have the priorities of the requests. -/
theorem mem_priorities_of_rules
    (each : List.Forall₂ (fun r part => part ≠ [] ∧ ∀ rule ∈ part, rule.priority = r.priority) rs parts)
    {priority : Option UInt16} :
    priority ∈ parts.flatten.map Rule.priority ↔ priority ∈ rs.map Request.priority := by
  induction each with
  | nil => rfl
  | @cons r part _ _ first _ ih =>
    obtain ⟨nonempty, own⟩ := first
    obtain ⟨rule, inside⟩ := List.exists_mem_of_ne_nil part nonempty
    have block : priority ∈ part.map Rule.priority ↔ priority = r.priority := by
      constructor
      · intro member
        obtain ⟨rule', inside', rfl⟩ := List.mem_map.mp member
        exact own rule' inside'
      · rintro rfl
        exact List.mem_map.mpr ⟨rule, inside, own rule inside⟩
    rw [List.flatten_cons, List.map_append, List.mem_append, ih, block, List.map_cons, List.mem_cons]

/-- Lists of rules, one behind the other, descend as the requests do that they are built for. -/
theorem descending_rules
    (each : List.Forall₂ (fun r part => part ≠ [] ∧ ∀ rule ∈ part, rule.priority = r.priority) rs parts) :
    Descending (parts.flatten.map Rule.priority) ↔ Descending (rs.map Request.priority) := by
  induction each with
  | nil => rfl
  | @cons r part rs parts first later ih =>
    obtain ⟨nonempty, own⟩ := first
    have block : part.map Rule.priority = List.replicate part.length r.priority := by
      refine List.eq_replicate_iff.mpr ⟨List.length_map _, fun priority member => ?_⟩
      obtain ⟨rule, inside, rfl⟩ := List.mem_map.mp member
      exact own rule inside
    have level : (List.replicate part.length r.priority).Pairwise
        fun before after => ∀ high ∈ before, ∀ low ∈ after, low ≤ high := by
      refine List.pairwise_replicate.mpr (.inr fun high ofHigh low ofLow => ?_)
      rw [Option.mem_unique ofHigh ofLow]
      exact UInt16.le_refl _
    have some : part.length ≠ 0 := fun none => nonempty (List.length_eq_zero_iff.mp none)
    unfold Descending at ih ⊢
    rw [List.flatten_cons, List.map_append, block, List.pairwise_append, and_iff_right level, ih, List.map_cons,
      List.pairwise_cons, and_comm]
    refine and_congr_left fun _ => ?_
    simp only [List.mem_replicate, mem_priorities_of_rules later]
    constructor
    · intro below priority member
      exact below _ ⟨some, rfl⟩ priority member
    · rintro below _ ⟨_, rfl⟩ priority member
      exact below priority member

end

namespace Panel

/-- The priorities of the requests of every switch come in blocks: exclusive wires first, and then each group
    in file order with its wires and its broadcasts behind them. They descend exactly where no group has
    broadcasts on a switch where a later group has a wire, and then the priorities of the rules descend too. -/
theorem requests_by_priority {version : Version} {topology : TopologyFile} {wires : WireFile} {p : Panel}
    {m : RequestMap} (read : ofFiles version topology wires = .ok p) (made : p.requests .all = .ok m) :
    ∃ k, p.rules .all = .ok k ∧ ∀ switch,
      (m.listOf switch).map Request.priority =
        List.replicate ((p.wiring.exclusiveWires.flatMap fun wire => p.wiring.nodesOf (.wire wire.name)).count switch)
          (some exclusivePriority) ++
        (p.wiring.groups.values.flatMap fun g =>
          List.replicate ((g.wires.flatMap fun name => p.wiring.nodesOf (.wire name)).count switch)
            (some sharedPriority) ++
          List.replicate ((p.wiring.nodesOf (.broadcast g)).count switch) (some broadcastPriority)) ∧
      (Descending ((m.listOf switch).map Request.priority) ↔
        p.wiring.groups.values.Pairwise (p.wiring.Yields switch)) ∧
      (Descending ((k.listOf switch).map Rule.priority) ↔
        p.wiring.groups.values.Pairwise (p.wiring.Yields switch)) := by
  obtain ⟨sound, _⟩ := sound_of_ofFiles read
  obtain ⟨k, compiled, _, built⟩ := rules_of_requests sound made
  obtain ⟨parts, emitted, same⟩ := requests_emitted sound made
  refine ⟨k, compiled, fun switch => ?_⟩
  have priorities : (m.listOf switch).map Request.priority = (p.wiring.origins .all).flatMap fun o =>
      List.replicate ((p.wiring.nodesOf o).count switch) (some (p.wiring.priorityOf o)) := by
    rw [same, SwitchMap.listOf_ofList, emitted.priorities]
  have descends : Descending ((m.listOf switch).map Request.priority) ↔
      p.wiring.groups.values.Pairwise (p.wiring.Yields switch) := by
    rw [priorities, descending_blocks, ← sound.pairwise_origins_iff]
    simp only [← Nat.pos_iff_ne_zero, List.count_pos_iff]
  refine ⟨?_, descends, ?_⟩
  · rw [priorities, Wiring.origins_all, List.flatMap_append, sound.priorities_of_exclusiveWires,
      List.flatMap_assoc]
    congr 1
    rw [List.flatMap_def, List.flatMap_def]
    congr 1
    exact List.map_congr_left fun g member => sound.priorities_of_group member switch
  · obtain ⟨lists, each, all⟩ := buildAll_ok_iff.mp (built switch)
    rw [all, descending_rules (each.imp fun _ _ => priority_of_build), descends]

/-- The exclusive wire and the wires of both groups have hops on both switches, so the priorities of neither
    switch descend. -/
theorem requests_by_priority_twin :
    ∃ p m k, ofFiles .v13 twinFile twinWires = .ok p ∧ p.requests .all = .ok m ∧ p.rules .all = .ok k ∧
      (m.listOf "s2").map Request.priority =
        List.replicate 2 (some exclusivePriority) ++
          (List.replicate 2 (some sharedPriority) ++ List.replicate 1 (some broadcastPriority)) ++
          (List.replicate 2 (some sharedPriority) ++ List.replicate 1 (some broadcastPriority)) ∧
      ¬ Descending ((k.listOf "s2").map Rule.priority) := by
  obtain ⟨p, read⟩ : ∃ p, ofFiles .v13 twinFile twinWires = .ok p := ⟨_, rfl⟩
  obtain ⟨m, made⟩ : ∃ m, p.requests .all = .ok m := by cases read; exact ⟨_, rfl⟩
  obtain ⟨k, compiled, each⟩ := requests_by_priority read made
  obtain ⟨blocks, descends, rulesDescend⟩ := each "s2"
  have priorities : (m.listOf "s2").map Request.priority =
      List.replicate 2 (some exclusivePriority) ++
        (List.replicate 2 (some sharedPriority) ++ List.replicate 1 (some broadcastPriority)) ++
        (List.replicate 2 (some sharedPriority) ++ List.replicate 1 (some broadcastPriority)) := by
    rw [blocks]
    cases read
    rfl
  refine ⟨p, m, k, read, made, compiled, priorities, fun descending => ?_⟩
  have falls := descends.mpr (rulesDescend.mp descending)
  rw [priorities] at falls
  exact absurd falls (by decide)

/-- Two groups on one switch: the broadcast of the first stands before the requests of the second. -/
theorem not_descending_twin :
    ∃ p m, ofFiles .v13 twinFile twinWires = .ok p ∧ p.requests .all = .ok m ∧
      (m.listOf "s1").map Request.priority =
        [some 65535, some 65535, some 32767, some 32767, some 16535, some 32767, some 32767, some 16535] ∧
      ¬ Descending ((m.listOf "s1").map Request.priority) := by
  obtain ⟨p, read⟩ : ∃ p, ofFiles .v13 twinFile twinWires = .ok p := ⟨_, rfl⟩
  obtain ⟨m, made⟩ : ∃ m, p.requests .all = .ok m := by cases read; exact ⟨_, rfl⟩
  have priorities : (m.listOf "s1").map Request.priority =
      [some 65535, some 65535, some 32767, some 32767, some 16535, some 32767, some 32767, some 16535] := by
    cases read
    cases made
    rfl
  refine ⟨p, m, read, made, priorities, ?_⟩
  rw [priorities]
  decide

end Panel
end PatchPanel
