import PatchPanel.Proofs.Wiring
import PatchPanel.Proofs.Broadcast
import Mathlib.Algebra.Ring.Nat

/-!
The requests of a panel as one flat list. The requests of a selection have their origins in a fixed
order (`Wiring.origins`), each origin emits its requests in a row (`Wiring.emitted?`), and the requests
of the panel are all of these grouped by switches (`Panel.requests_emitted`).
-/
namespace PatchPanel

/-- What asks for requests: a wire, or a group for its broadcasts. -/
inductive Origin where
  | wire (name : String)
  | broadcast (g : Group)
  deriving DecidableEq

/-! ### The emissions of one wire -/

namespace Wire

/-- The number of places where the path enters and leaves a node. -/
def hopCount (w : Wire) : Nat := (hopsOf w.path).length

/-- The nodes of the hops towards the host under test, where the wire has hops. -/
def hopNodes (w : Wire) : List String := ((w.hops .toDut).toOption.getD []).map Hop.node

theorem length_of_hops {w : Wire} {direction : Direction} {hs : List Hop} (found : w.hops direction = .ok hs) :
    hs.length = w.hopCount := by
  rw [hops_eq] at found
  obtain ⟨reversed, _, kept⟩ := bind_eq_ok_iff.mp found
  split at kept
  · cases kept
  · cases kept
    cases reversed <;> simp [readPath, hopCount, hopsOf_reverse]

/-- The hops back are on the same nodes from the last to the first. -/
theorem nodes_toHost {w : Wire} {hs back : List Hop} (there : w.hops .toDut = .ok hs)
    (found : w.hops .toHost = .ok back) :
    back.map Hop.node = (hs.map Hop.node).reverse := by
  rw [hops_toHost, there] at found
  cases found
  have sameNode : ∀ h ∈ hs.reverse, (Hop.node ∘ Hop.flip) h = h.node := by
    intro h member
    exact (mem_hops there (List.mem_reverse.mp member)).2.2.symm
  rw [List.map_map, List.map_congr_left sameNode, List.map_reverse]

private theorem nodes_of_emit {w : Wire} {direction : Direction} {es : List Emission}
    (emitted : w.emit direction = .ok es) :
    ∃ hs, w.hops direction = .ok hs ∧ es.map Prod.fst = hs.map Hop.node := by
  obtain ⟨hs, p, hops, _, each⟩ := emit_ok_iff.mp emitted
  exact ⟨hs, hops, map_eq_of_forall₂ each fun h e here => here.1⟩

/-- A wire has one request for each hop there, in the order of the path, and then one for each hop back. -/
theorem nodes_of_emissions {w : Wire} {es : List Emission} (emitted : w.emissions = .ok es) :
    es.map Prod.fst = w.hopNodes ++ w.hopNodes.reverse ∧ es.length = 2 * w.hopCount := by
  obtain ⟨_, there, back, forth, backwards, rfl⟩ := emissions_ok_iff.mp emitted
  obtain ⟨hs, hops, thereNodes⟩ := nodes_of_emit forth
  obtain ⟨hsBack, hopsBack, backNodes⟩ := nodes_of_emit backwards
  have nodes : (there ++ back).map Prod.fst = w.hopNodes ++ w.hopNodes.reverse := by
    rw [List.map_append, thereNodes, backNodes, nodes_toHost hops hopsBack, hopNodes, hops]
    rfl
  have count : w.hopNodes.length = w.hopCount := by
    rw [hopNodes, hops, List.length_map]
    exact length_of_hops hops
  refine ⟨nodes, ?_⟩
  calc (there ++ back).length = ((there ++ back).map Prod.fst).length := List.length_map _ |>.symm
    _ = w.hopNodes.length + w.hopNodes.length := by rw [nodes, List.length_append, List.length_reverse]
    _ = 2 * w.hopCount := by rw [count]; omega

end Wire

/-- The broadcasts of a group have one request for each hop of the wire towards its test host. -/
theorem Group.nodes_of_emitBroadcast {g : Group} {w : Wire} {ports : List UInt32} {es : List Emission}
    (emitted : g.emitBroadcast w ports = .ok es) :
    es.map Prod.fst = w.hopNodes.reverse ∧ es.length = w.hopCount := by
  obtain ⟨dut, back, _, hopsBack, each⟩ := emitBroadcast_ok_iff.mp emitted
  obtain ⟨hs, hops, _⟩ := map_eq_ok_iff.mp ((w.hops_toHost).symm.trans hopsBack)
  have nodes : es.map Prod.fst = back.map Hop.node := map_eq_of_forall₂ each fun h e here => here.1
  refine ⟨?_, ?_⟩
  · rw [nodes, Wire.nodes_toHost hops hopsBack, Wire.hopNodes, hops]
    rfl
  · rw [← each.length_eq]
    exact Wire.length_of_hops hopsBack

/-! ### The emissions of a selection -/

/-- The origins that a group gives: its wires in their order, and then its broadcasts. -/
def Group.origins (g : Group) : List Origin := g.wires.map .wire ++ [.broadcast g]

namespace Wiring

/-- The origins of a selection: exclusive wires in file order, then each group in file order. -/
def origins (w : Wiring) (selection : Selection) : List Origin :=
  (if selection.hasExclusive then w.exclusiveWires.map fun wire => .wire wire.name else []) ++
    if selection.hasShared then w.groups.values.flatMap Group.origins else []

/-- What an origin emits, if it can emit. -/
def emitted? (w : Wiring) : Origin → Option (List Emission)
  | .wire name => do
    let wire ← w.wires.get? name
    wire.emissions.toOption
  | .broadcast g => do
    let first ← w.wires.get? g.representative
    let ports ← (w.broadcastPorts g).toOption
    (g.emitBroadcast first ports).toOption

/-- The nodes that the requests of an origin are for, in order. -/
def nodesOf (w : Wiring) : Origin → List String
  | .wire name => ((w.wires.get? name).map fun wire => wire.hopNodes ++ wire.hopNodes.reverse).getD []
  | .broadcast g => ((w.wires.get? g.representative).map fun first => first.hopNodes.reverse).getD []

/-- The number of requests of an origin: two for each hop of a wire, and one for each hop of the wire
    that carries the broadcasts of a group. -/
def requestCount (w : Wiring) : Origin → Nat
  | .wire name => ((w.wires.get? name).map fun wire => 2 * wire.hopCount).getD 0
  | .broadcast g => ((w.wires.get? g.representative).map Wire.hopCount).getD 0

/-- The origins in their order, each with what it emits. -/
structure Emitted (w : Wiring) (origins : List Origin) (parts : List (Origin × List Emission)) : Prop where
  inOrder : parts.map Prod.fst = origins
  each : ∀ part ∈ parts, w.emitted? part.1 = some part.2

theorem Emitted.nil (w : Wiring) : w.Emitted [] [] := ⟨rfl, by simp⟩

theorem Emitted.single {w : Wiring} {origin : Origin} {es : List Emission} (emitted : w.emitted? origin = some es) :
    w.Emitted [origin] [(origin, es)] :=
  ⟨rfl, by simpa using emitted⟩

theorem Emitted.append {w : Wiring} {origins later : List Origin} {parts more : List (Origin × List Emission)}
    (first : w.Emitted origins parts) (second : w.Emitted later more) :
    w.Emitted (origins ++ later) (parts ++ more) := by
  refine ⟨by rw [List.map_append, first.inOrder, second.inOrder], fun part member => ?_⟩
  rcases List.mem_append.mp member with inside | after
  · exact first.each part inside
  · exact second.each part after

theorem Emitted.cons_inv {w : Wiring} {origin : Origin} {origins : List Origin} {parts : List (Origin × List Emission)}
    (emitted : w.Emitted (origin :: origins) parts) :
    ∃ es rest, parts = (origin, es) :: rest ∧ w.emitted? origin = some es ∧ w.Emitted origins rest := by
  obtain ⟨inOrder, each⟩ := emitted
  cases parts with
  | nil => cases inOrder
  | cons part rest =>
    obtain ⟨first, es⟩ := part
    rw [List.map_cons, List.cons.injEq] at inOrder
    obtain ⟨rfl, later⟩ := inOrder
    obtain ⟨here, others⟩ := List.forall_mem_cons.mp each
    exact ⟨es, rest, rfl, here, later, others⟩

theorem Emitted.emitted?_of_mem {w : Wiring} {origins : List Origin} {parts : List (Origin × List Emission)}
    (emitted : w.Emitted origins parts) {origin : Origin} (member : origin ∈ origins) :
    ∃ es, w.emitted? origin = some es := by
  rw [← emitted.inOrder] at member
  obtain ⟨part, inside, rfl⟩ := List.mem_map.mp member
  exact ⟨part.2, emitted.each part inside⟩

theorem Emitted.append_inv {w : Wiring} {origins later : List Origin} {parts : List (Origin × List Emission)}
    (emitted : w.Emitted (origins ++ later) parts) :
    ∃ first second, parts = first ++ second ∧ w.Emitted origins first ∧ w.Emitted later second := by
  obtain ⟨inOrder, each⟩ := emitted
  obtain ⟨first, second, rfl, before, after⟩ := List.map_eq_append_iff.mp inOrder
  exact ⟨first, second, rfl, ⟨before, fun part member => each part (List.mem_append_left _ member)⟩,
    after, fun part member => each part (List.mem_append_right _ member)⟩

theorem exists_emitted {w : Wiring} {origins : List Origin}
    (each : ∀ origin ∈ origins, ∃ es, w.emitted? origin = some es) :
    ∃ parts, w.Emitted origins parts := by
  induction origins with
  | nil => exact ⟨[], .nil w⟩
  | cons origin origins ih =>
    obtain ⟨⟨es, here⟩, others⟩ := List.forall_mem_cons.mp each
    obtain ⟨parts, later⟩ := ih others
    exact ⟨_, (Emitted.single here).append later⟩

theorem emitted?_wire {w : Wiring} {name : String} {es : List Emission} :
    w.emitted? (.wire name) = some es ↔ ∃ wire, w.wires.get? name = some wire ∧ wire.emissions = .ok es := by
  simp only [emitted?, Option.bind_eq_bind, Option.bind_eq_some_iff, toOption_eq_some_iff]

theorem emitted?_broadcast {w : Wiring} {g : Group} {es : List Emission} :
    w.emitted? (.broadcast g) = some es ↔ ∃ first ports, w.wires.get? g.representative = some first ∧
      w.broadcastPorts g = .ok ports ∧ g.emitBroadcast first ports = .ok es := by
  simp only [emitted?, Option.bind_eq_bind, Option.bind_eq_some_iff, toOption_eq_some_iff]
  tauto

theorem Emitted.nodes {w : Wiring} {origins : List Origin} {parts : List (Origin × List Emission)}
    (emitted : w.Emitted origins parts) {part : Origin × List Emission} (member : part ∈ parts) :
    part.2.map Prod.fst = w.nodesOf part.1 ∧ part.2.length = w.requestCount part.1 := by
  obtain ⟨origin, es⟩ := part
  have given := emitted.each _ member
  cases origin with
  | wire name =>
    obtain ⟨wire, found, made⟩ := emitted?_wire.mp given
    simpa [nodesOf, requestCount, found] using Wire.nodes_of_emissions made
  | broadcast g =>
    obtain ⟨first, ports, found, _, made⟩ := emitted?_broadcast.mp given
    simpa [nodesOf, requestCount, found] using Group.nodes_of_emitBroadcast made

theorem Emitted.length {w : Wiring} {origins : List Origin} {parts : List (Origin × List Emission)}
    (emitted : w.Emitted origins parts) : (parts.flatMap Prod.snd).length = (origins.map w.requestCount).sum := by
  have sizes : parts.map (fun part => part.2.length) = parts.map (fun part => w.requestCount part.1) :=
    List.map_congr_left fun part member => (emitted.nodes member).2
  rw [List.length_flatMap, sizes, ← emitted.inOrder, List.map_map]
  rfl

theorem wiresOf_ok_iff {w : Wiring} {group : String} {names : List String} {ws : List Wire} :
    w.wiresOf group names = .ok ws ↔ List.Forall₂ (fun name wire => w.wires.get? name = some wire) names ws := by
  induction names generalizing ws with
  | nil => simp [wiresOf, eq_comm]
  | cons name names ih =>
    cases found : w.wires.get? name with
    | none =>
      simp only [wiresOf, found, error_bind, reduceCtorEq, false_iff]
      rintro (_ | ⟨other, _⟩)
      rw [found] at other
      cases other
    | some wire =>
      simp only [wiresOf, found, ok_bind, bind_eq_ok_iff, ih, pure_eq_ok, Except.ok.injEq]
      constructor
      · rintro ⟨rest, known, rfl⟩
        exact .cons found known
      · rintro (_ | ⟨other, known⟩)
        rw [found] at other
        cases other
        exact ⟨_, known, rfl⟩

/-! ### Merging is grouping -/

/-- Merging the requests of wires one after the other appends what the wires emit. -/
theorem mergeWires_emitted {w : Wiring} {names : List String} {ws : List Wire} {m : RequestMap} (es : List Emission)
    (known : List.Forall₂ (fun name wire => w.wires.get? name = some wire) names ws)
    (merged : mergeWires (.ofList es) ws = .ok m) :
    ∃ parts, w.Emitted (names.map .wire) parts ∧ m = .ofList (es ++ parts.flatMap Prod.snd) := by
  -- The map merged so far is the grouping of the list so far, which grows with every wire.
  induction known generalizing es with
  | nil =>
    cases merged
    exact ⟨[], .nil w, by simp⟩
  | @cons name wire names ws found _ ih =>
    rw [mergeWires, bind_eq_ok_iff] at merged
    obtain ⟨more, made, merged⟩ := merged
    rw [wireRequests, mapError_eq_ok_iff, Wire.requests_eq, map_eq_ok_iff] at made
    obtain ⟨own, emitted, rfl⟩ := made
    rw [SwitchMap.merge_ofList] at merged
    obtain ⟨parts, others, same⟩ := ih _ merged
    refine ⟨(.wire name, own) :: parts, ?_, by rw [same]; simp⟩
    exact (Emitted.single (emitted?_wire.mpr ⟨wire, found, emitted⟩)).append others

/-- Wires that can emit can be merged. -/
theorem mergeWires_of_emitted {w : Wiring} {names : List String} {ws : List Wire} (es : List Emission)
    (known : List.Forall₂ (fun name wire => w.wires.get? name = some wire) names ws)
    {parts : List (Origin × List Emission)} (emitted : w.Emitted (names.map .wire) parts) :
    mergeWires (.ofList es) ws = .ok (.ofList (es ++ parts.flatMap Prod.snd)) := by
  induction known generalizing es parts with
  | nil =>
    rw [List.map_eq_nil_iff.mp emitted.inOrder]
    simp [mergeWires]
  | @cons name wire names ws found _ ih =>
    obtain ⟨own, rest, rfl, first, later⟩ := Emitted.cons_inv emitted
    obtain ⟨wire', same, made⟩ := emitted?_wire.mp first
    rw [found] at same
    cases same
    rw [mergeWires, wireRequests, Wire.requests_eq, made, map_ok_eq, List.flatMap_cons, ← List.append_assoc,
      ← ih (es ++ own) later, ← SwitchMap.merge_ofList]
    rfl

theorem broadcastRequests_emitted {w : Wiring} {g : Group} {members : List Wire} {m : RequestMap}
    (known : w.members g = .ok members) (made : w.broadcastRequests g members = .ok m) :
    ∃ es, w.emitted? (.broadcast g) = some es ∧ m = .ofList es := by
  have named := wiresOf_ok_iff.mp known
  cases members with
  | nil => cases made
  | cons first rest =>
    have carries : w.wires.get? g.representative = some first := head_of_forall₂ named g.wires_ne_nil
    rw [broadcastRequests, bind_eq_ok_iff] at made
    obtain ⟨ports, leaving, made⟩ := made
    rw [mapError_eq_ok_iff, Group.broadcastRequests, map_eq_ok_iff] at made
    obtain ⟨es, emitted, rfl⟩ := made
    exact ⟨es, emitted?_broadcast.mpr ⟨first, ports, carries, leaving, emitted⟩, rfl⟩

theorem broadcastRequests_of_emitted {w : Wiring} {g : Group} {members : List Wire}
    (known : w.members g = .ok members) {es : List Emission} (emitted : w.emitted? (.broadcast g) = some es) :
    w.broadcastRequests g members = .ok (.ofList es) := by
  have named := wiresOf_ok_iff.mp known
  obtain ⟨first, ports, carries, leaving, made⟩ := emitted?_broadcast.mp emitted
  cases members with
  | nil => exact absurd (List.forall₂_nil_right_iff.mp named) g.wires_ne_nil
  | cons head rest =>
    have same : w.wires.get? g.representative = some head := head_of_forall₂ named g.wires_ne_nil
    rw [carries] at same
    cases same
    rw [broadcastRequests, leaving, ok_bind, Group.broadcastRequests, made]
    rfl

/-- A group has broadcasts where they are emitted. -/
theorem broadcasts_ok_iff {w : Wiring} {g : Group} {m : RequestMap} :
    (w.members g >>= w.broadcastRequests g) = .ok m ↔ ∃ es, w.emitted? (.broadcast g) = some es ∧ m = .ofList es := by
  constructor
  · intro made
    obtain ⟨members, known, made⟩ := bind_eq_ok_iff.mp made
    exact broadcastRequests_emitted known made
  · rintro ⟨es, emitted, rfl⟩
    obtain ⟨_, _, _, leaving, _⟩ := emitted?_broadcast.mp emitted
    obtain ⟨members, known, _⟩ := bind_eq_ok_iff.mp leaving
    rw [known, ok_bind]
    exact broadcastRequests_of_emitted known emitted

/-- Merging the requests of groups one after the other appends what each group's wires emit and then
    its broadcasts. -/
theorem mergeGroups_emitted {w : Wiring} {gs : List Group} {m : RequestMap} (es : List Emission)
    (merged : w.mergeGroups (.ofList es) gs = .ok m) :
    ∃ parts, w.Emitted (gs.flatMap Group.origins) parts ∧ m = .ofList (es ++ parts.flatMap Prod.snd) := by
  induction gs generalizing es with
  | nil =>
    cases merged
    exact ⟨[], .nil w, by simp⟩
  | cons g gs ih =>
    rw [mergeGroups, bind_eq_ok_iff] at merged
    obtain ⟨members, known, merged⟩ := merged
    obtain ⟨ofWires, mergedWires, merged⟩ := bind_eq_ok_iff.mp merged
    obtain ⟨broadcasts, broadcasted, merged⟩ := bind_eq_ok_iff.mp merged
    obtain ⟨parts, wires, rfl⟩ := mergeWires_emitted es (wiresOf_ok_iff.mp known) mergedWires
    obtain ⟨own, last, rfl⟩ := broadcastRequests_emitted known broadcasted
    rw [SwitchMap.merge_ofList] at merged
    obtain ⟨more, others, same⟩ := ih _ merged
    refine ⟨parts ++ [(.broadcast g, own)] ++ more, ?_, by rw [same]; simp⟩
    exact (wires.append (.single last)).append others

/-- Groups whose wires and broadcasts can be emitted can be merged. -/
theorem mergeGroups_of_emitted {w : Wiring} {gs : List Group} (es : List Emission)
    {parts : List (Origin × List Emission)} (emitted : w.Emitted (gs.flatMap Group.origins) parts) :
    w.mergeGroups (.ofList es) gs = .ok (.ofList (es ++ parts.flatMap Prod.snd)) := by
  induction gs generalizing es parts with
  | nil =>
    rw [List.map_eq_nil_iff.mp emitted.inOrder]
    simp [mergeGroups]
  | cons g gs ih =>
    rw [List.flatMap_cons, Group.origins, List.append_assoc] at emitted
    obtain ⟨ofWires, more, rfl, wires, later⟩ := Emitted.append_inv emitted
    obtain ⟨own, rest, rfl, broadcast, others⟩ := Emitted.cons_inv later
    have each : ∀ name ∈ g.wires, ∃ wire, w.wires.get? name = some wire := by
      intro name listed
      obtain ⟨own, given⟩ := wires.emitted?_of_mem (List.mem_map_of_mem listed)
      obtain ⟨wire, found, _⟩ := emitted?_wire.mp given
      exact ⟨wire, found⟩
    obtain ⟨members, known⟩ := exists_forall₂ each
    have ofGroup : w.members g = .ok members := wiresOf_ok_iff.mpr known
    simp only [mergeGroups, ofGroup, ok_bind, mergeWires_of_emitted es known wires,
      broadcastRequests_of_emitted ofGroup broadcast, SwitchMap.merge_ofList, ih _ others]
    simp

theorem Sound.known_exclusiveWires {w : Wiring} (sound : w.Sound) :
    List.Forall₂ (fun name wire => w.wires.get? name = some wire) (w.exclusiveWires.map Wire.name)
      w.exclusiveWires := by
  rw [List.forall₂_map_left_iff, List.forall₂_same]
  exact fun wire member => sound.get?_name (List.mem_of_mem_filter member)

theorem exclusiveRequests_emitted {w : Wiring} (sound : w.Sound) {m : RequestMap} (made : w.exclusiveRequests = .ok m) :
    ∃ parts, w.Emitted (w.exclusiveWires.map fun wire => .wire wire.name) parts ∧
      m = .ofList (parts.flatMap Prod.snd) := by
  obtain ⟨parts, emitted, same⟩ := mergeWires_emitted [] sound.known_exclusiveWires made
  refine ⟨parts, ?_, same⟩
  rwa [List.map_map] at emitted

theorem exclusiveRequests_of_emitted {w : Wiring} (sound : w.Sound) {parts : List (Origin × List Emission)}
    (emitted : w.Emitted (w.exclusiveWires.map fun wire => .wire wire.name) parts) :
    w.exclusiveRequests = .ok (.ofList (parts.flatMap Prod.snd)) := by
  have named : w.Emitted ((w.exclusiveWires.map Wire.name).map .wire) parts := by rwa [List.map_map]
  exact mergeWires_of_emitted [] sound.known_exclusiveWires named

/-! ### How often a wire is asked -/

theorem wire_injective : Function.Injective Origin.wire := fun _ _ same => Origin.wire.inj same

theorem count_groupOrigins (g : Group) (name : String) : g.origins.count (.wire name) = g.wires.count name := by
  rw [Group.origins, List.count_append, List.count_map_of_injective _ _ wire_injective]
  simp

/-- Names of wires are distinct, so an exclusive wire is listed once and no other wire at all. -/
theorem Sound.count_exclusiveWires {w : Wiring} (sound : w.Sound) {name : String} {wire : Wire}
    (found : w.wires.get? name = some wire) :
    (w.exclusiveWires.map Wire.name).count name = if wire.isExclusive then 1 else 0 := by
  have distinct : (w.exclusiveWires.map Wire.name).Nodup := by
    have all : (w.wires.values.map Wire.name).Nodup := sound.names_eq ▸ w.wires.nodup
    exact all.sublist (List.filter_sublist.map _)
  have listed : name ∈ w.exclusiveWires.map Wire.name ↔ wire.isExclusive := by
    constructor
    · intro member
      obtain ⟨other, inside, same⟩ := List.mem_map.mp member
      obtain ⟨value, exclusive⟩ := List.mem_filter.mp inside
      have again := sound.get?_name value
      rw [same, found] at again
      cases again
      exact exclusive
    · intro exclusive
      have value : wire ∈ w.wires.values := Index.mem_values.mpr ⟨name, found⟩
      exact List.mem_map.mpr ⟨wire, List.mem_filter.mpr ⟨value, exclusive⟩, (sound.wireName name wire found).1⟩
  rw [distinct.count]
  simp only [listed]

/-- An exclusive wire is an origin once, and a shared wire as often as the groups list it. -/
theorem Sound.count_origins {w : Wiring} (sound : w.Sound) {name : String} {wire : Wire}
    (found : w.wires.get? name = some wire) (selection : Selection) :
    (w.origins selection).count (.wire name) =
      (if selection.hasExclusive ∧ wire.isExclusive then 1 else 0) +
        if selection.hasShared then (w.groups.values.map fun g => g.wires.count name).sum else 0 := by
  have exclusives : (w.exclusiveWires.map fun wire => Origin.wire wire.name).count (.wire name) =
      if wire.isExclusive then 1 else 0 := by
    have split : w.exclusiveWires.map (fun wire => Origin.wire wire.name) =
        (w.exclusiveWires.map Wire.name).map Origin.wire := by rw [List.map_map]; rfl
    rw [split, List.count_map_of_injective _ _ wire_injective, sound.count_exclusiveWires found]
  have grouped : (w.groups.values.flatMap Group.origins).count (.wire name) =
      (w.groups.values.map fun g => g.wires.count name).sum := by
    rw [List.count_flatMap]
    simp only [Function.comp_def, count_groupOrigins]
  rw [origins, List.count_append]
  congr 1
  · by_cases included : selection.hasExclusive = true <;> simp [included, exclusives]
  · by_cases included : selection.hasShared = true <;> simp [included, grouped]

/-- An exclusive wire is an origin of every selection that has the exclusive wires in it. -/
theorem Sound.mem_origins_of_exclusive {w : Wiring} (sound : w.Sound) {name : String} {wire : Wire}
    (found : w.wires.get? name = some wire) (exclusive : wire.mode = .exclusive) {selection : Selection}
    (included : selection.hasExclusive = true) : Origin.wire name ∈ w.origins selection := by
  rw [← List.count_pos_iff, sound.count_origins found, if_pos ⟨included, by simp [Wire.isExclusive, exclusive]⟩]
  omega

/-- Origins that are wires are wires of the file. -/
theorem Sound.exists_wire {w : Wiring} (sound : w.Sound) {name : String} {selection : Selection}
    (asked : .wire name ∈ w.origins selection) : ∃ wire, w.wires.get? name = some wire := by
  rcases List.mem_append.mp asked with exclusive | shared
  · split at exclusive
    · obtain ⟨wire, member, same⟩ := List.mem_map.mp exclusive
      cases same
      exact ⟨wire, sound.get?_name (List.mem_of_mem_filter member)⟩
    · cases exclusive
  · split at shared
    · obtain ⟨g, member, own⟩ := List.mem_flatMap.mp shared
      have listed : name ∈ g.wires := by
        rw [← List.count_pos_iff, ← count_groupOrigins, List.count_pos_iff]
        exact own
      obtain ⟨wire, found, _⟩ := sound.groupWires g member name listed
      exact ⟨wire, found⟩
    · cases shared

/-- A shared wire in no group is no origin. -/
theorem Sound.not_mem_origins {w : Wiring} (sound : w.Sound) {name : String} (alone : name ∈ w.ungrouped)
    (selection : Selection) : Origin.wire name ∉ w.origins selection := by
  rw [ungrouped, List.mem_filter] at alone
  obtain ⟨shared, inNone⟩ := alone
  obtain ⟨wire, inside, rfl⟩ := List.mem_map.mp shared
  obtain ⟨value, isShared⟩ := List.mem_filter.mp inside
  have notExclusive : wire.isExclusive = false := by
    cases mode : wire.mode <;> simp_all [Wire.isShared, Wire.isExclusive]
  have never : ∀ g ∈ w.groups.values, g.wires.count wire.name = 0 := by
    intro g member
    rw [List.count_eq_zero]
    intro listed
    simp only [Bool.not_eq_true', List.any_eq_false, List.contains_iff_mem] at inNone
    exact inNone g member listed
  have none : (w.groups.values.map fun g => g.wires.count wire.name).sum = 0 := by
    rw [List.map_congr_left never]
    simp
  rw [← List.count_eq_zero, sound.count_origins (sound.get?_name value) selection, none]
  simp [notExclusive]

end Wiring

/-! ### A panel to look at -/

private def numbered (port : String) (number : UInt64) : String × Json :=
  (port, .object [("number", .natural number)])

/-- A test host, two switches in a row and a host under test on a tagged port. -/
def trunkFile : TopologyFile where
  switches := some (.ofList [
    ("s1", ⟨1, .ofList [numbered "p1" 1, numbered "p2" 2]⟩),
    ("s2", ⟨2, .ofList [numbered "p1" 1, numbered "p2" 2]⟩)])
  testHosts := some (.ofList [("h", ⟨.ofList [("e",
    .object [("mac-addr", .string "0a:00:00:00:00:01"), ("ip-addr", .string "192.168.2.101/24")])]⟩)])
  dutHosts := some (.ofList [("d", ⟨.ofList [("e",
    .object [("vlan-id", .natural 200), ("vlan-tagged", .bool true)])]⟩)])
  links := some [⟨⟨"h", "e"⟩, ⟨"s1", "p1"⟩⟩, ⟨⟨"s1", "p2"⟩, ⟨"s2", "p1"⟩⟩, ⟨⟨"s2", "p2"⟩, ⟨"d", "e"⟩⟩]

private def trunkEntry (mode : String) : WireEntry where
  mode := some mode
  path := some [⟨"s1", "p1"⟩, ⟨"s1", "p2"⟩, ⟨"s2", "p1"⟩, ⟨"s2", "p2"⟩]
  testHostPort := some ⟨"h", "e"⟩
  dutHostPort := some ⟨"d", "e"⟩

/-- An exclusive wire, a shared wire in two groups and a shared wire in none, all on one path. -/
def trunkWires : WireFile where
  wires := some (.ofList [("x", trunkEntry "exclusive"), ("w", trunkEntry "shared"), ("u", trunkEntry "shared")])
  groups := some (.ofList [("g", ⟨some 7, some ["w"]⟩), ("k", ⟨some 8, some ["w"]⟩)])

private def testHost (mac ip : String) : HostEntry :=
  ⟨.ofList [("e", .object [("mac-addr", .string mac), ("ip-addr", .string ip)])]⟩

/-- Two test hosts on the first of two switches, and a host under test with a tagged and a plain port on the
    second. -/
def twinFile : TopologyFile where
  switches := some (.ofList [
    ("s1", ⟨1, .ofList [numbered "p1" 1, numbered "p2" 2, numbered "p3" 3]⟩),
    ("s2", ⟨2, .ofList [numbered "p1" 1, numbered "p2" 2, numbered "p3" 3]⟩)])
  testHosts := some (.ofList [
    ("h1", testHost "0a:00:00:00:00:01" "192.168.2.101/24"),
    ("h2", testHost "0a:00:00:00:00:02" "192.168.2.102/24")])
  dutHosts := some (.ofList [("d", ⟨.ofList [
    ("e0", .object [("vlan-id", .natural 200), ("vlan-tagged", .bool true)]), ("e1", .object [])]⟩)])
  links := some [⟨⟨"h1", "e"⟩, ⟨"s1", "p1"⟩⟩, ⟨⟨"h2", "e"⟩, ⟨"s1", "p2"⟩⟩, ⟨⟨"s1", "p3"⟩, ⟨"s2", "p1"⟩⟩,
    ⟨⟨"s2", "p2"⟩, ⟨"d", "e0"⟩⟩, ⟨⟨"s2", "p3"⟩, ⟨"d", "e1"⟩⟩]

private def twinEntry (mode host hostEdge dutEdge dut : String) : WireEntry where
  mode := some mode
  path := some [⟨"s1", hostEdge⟩, ⟨"s1", "p3"⟩, ⟨"s2", "p1"⟩, ⟨"s2", dutEdge⟩]
  testHostPort := some ⟨host, "e"⟩
  dutHostPort := some ⟨"d", dut⟩

/-- A shared wire from each test host to the tagged port, each in a group of its own, and an exclusive wire from
    the second test host to the plain port. -/
def twinWires : WireFile where
  wires := some (.ofList [
    ("w1", twinEntry "shared" "h1" "p1" "p2" "e0"),
    ("w2", twinEntry "shared" "h2" "p2" "p2" "e0"),
    ("x", twinEntry "exclusive" "h2" "p2" "p3" "e1")])
  groups := some (.ofList [("g1", ⟨some 7, some ["w1"]⟩), ("g2", ⟨some 8, some ["w2"]⟩)])

/-! ### The requests of a panel -/

namespace Panel

/-- A selection has the requests of the one kind and behind them those of the other. -/
theorem requests_ok_iff {p : Panel} {selection : Selection} {m : RequestMap} :
    p.requests selection = .ok m ↔ ∃ exclusive shared,
      (if selection.hasExclusive then p.wiring.exclusiveRequests = .ok exclusive else exclusive = .empty) ∧
      (if selection.hasShared then p.wiring.sharedRequests = .ok shared else shared = .empty) ∧
      m = exclusive.merge shared := by
  unfold requests
  cases selection.hasExclusive <;> cases selection.hasShared <;>
    simp [bind_eq_ok_iff, mapError_eq_ok_iff, eq_comm (a := m)]

/-- The requests of a selection are what its origins emit, grouped by switches. -/
theorem requests_emitted {p : Panel} (sound : p.wiring.Sound) {selection : Selection} {m : RequestMap}
    (made : p.requests selection = .ok m) :
    ∃ parts, p.wiring.Emitted (p.wiring.origins selection) parts ∧ m = .ofList (parts.flatMap Prod.snd) := by
  obtain ⟨exclusive, shared, first, second, rfl⟩ := requests_ok_iff.mp made
  have ofExclusive : ∃ parts, p.wiring.Emitted
      (if selection.hasExclusive then p.wiring.exclusiveWires.map fun wire => .wire wire.name else []) parts ∧
      exclusive = .ofList (parts.flatMap Prod.snd) := by
    by_cases included : selection.hasExclusive = true
    · rw [if_pos included] at first ⊢
      exact Wiring.exclusiveRequests_emitted sound first
    · rw [if_neg included] at first ⊢
      exact ⟨[], .nil _, first⟩
  have ofShared : ∃ parts, p.wiring.Emitted
      (if selection.hasShared then p.wiring.groups.values.flatMap Group.origins else []) parts ∧
      shared = .ofList (parts.flatMap Prod.snd) := by
    by_cases included : selection.hasShared = true
    · rw [if_pos included] at second ⊢
      exact Wiring.mergeGroups_emitted [] second
    · rw [if_neg included] at second ⊢
      exact ⟨[], .nil _, second⟩
  obtain ⟨parts, emitted, rfl⟩ := ofExclusive
  obtain ⟨more, later, rfl⟩ := ofShared
  refine ⟨parts ++ more, emitted.append later, ?_⟩
  rw [SwitchMap.merge_ofList, List.flatMap_append]

/-- Where all origins of a selection can emit, the selection has requests. -/
theorem requests_of_emitted {p : Panel} (sound : p.wiring.Sound) {selection : Selection}
    {parts : List (Origin × List Emission)} (emitted : p.wiring.Emitted (p.wiring.origins selection) parts) :
    p.requests selection = .ok (.ofList (parts.flatMap Prod.snd)) := by
  obtain ⟨first, second, rfl, exclusive, shared⟩ := Wiring.Emitted.append_inv emitted
  refine requests_ok_iff.mpr ⟨.ofList (first.flatMap Prod.snd), .ofList (second.flatMap Prod.snd), ?_, ?_, ?_⟩
  · by_cases included : selection.hasExclusive = true
    · rw [if_pos included] at exclusive ⊢
      exact Wiring.exclusiveRequests_of_emitted sound exclusive
    · rw [if_neg included] at exclusive ⊢
      rw [List.map_eq_nil_iff.mp exclusive.inOrder]
      rfl
  · by_cases included : selection.hasShared = true
    · rw [if_pos included] at shared ⊢
      exact Wiring.mergeGroups_of_emitted [] shared
    · rw [if_neg included] at shared ⊢
      rw [List.map_eq_nil_iff.mp shared.inOrder]
      rfl
  · rw [List.flatMap_append, SwitchMap.merge_ofList]

/-- What an origin of the selection emits is among the requests of the selection. -/
theorem requests_of_origin {p : Panel} (sound : p.wiring.Sound) {selection : Selection} {m : RequestMap}
    (made : p.requests selection = .ok m) {origin : Origin} (asked : origin ∈ p.wiring.origins selection) :
    ∃ es, p.wiring.emitted? origin = some es ∧ ∀ e ∈ es, e.2 ∈ m.listOf e.1 := by
  obtain ⟨parts, emitted, rfl⟩ := requests_emitted sound made
  rw [← emitted.inOrder] at asked
  obtain ⟨part, inside, rfl⟩ := List.mem_map.mp asked
  refine ⟨part.2, emitted.each part inside, fun e member => ?_⟩
  rw [SwitchMap.listOf_ofList, mem_valuesFor]
  exact List.mem_flatMap.mpr ⟨part, inside, member⟩

/-- What a wire of the selection emits is among the requests of the selection. -/
theorem requests_of_wire {p : Panel} (sound : p.wiring.Sound) {selection : Selection} {m : RequestMap}
    (made : p.requests selection = .ok m) {name : String} {w : Wire} (found : p.wiring.wires.get? name = some w)
    (asked : .wire name ∈ p.wiring.origins selection) :
    ∃ es, w.emissions = .ok es ∧ ∀ e ∈ es, e.2 ∈ m.listOf e.1 := by
  obtain ⟨es, given, listed⟩ := requests_of_origin sound made asked
  obtain ⟨same, again, own⟩ := Wiring.emitted?_wire.mp given
  rw [found] at again
  cases again
  exact ⟨es, own, listed⟩

/-- All requests are the exclusive ones and behind them, switch by switch, the shared ones. -/
theorem requests_all {p : Panel} {m : RequestMap} (made : p.requests .all = .ok m) :
    ∃ exclusive shared, p.requests .exclusive = .ok exclusive ∧ p.requests .shared = .ok shared ∧
      ∀ switch, m.listOf switch = exclusive.listOf switch ++ shared.listOf switch := by
  obtain ⟨exclusive, shared, first, second, rfl⟩ := requests_ok_iff.mp made
  refine ⟨exclusive, shared, ?_, ?_, fun switch => SwitchMap.listOf_merge exclusive shared switch⟩
  · exact requests_ok_iff.mpr ⟨exclusive, .empty, first, rfl, rfl⟩
  · exact requests_ok_iff.mpr ⟨.empty, shared, rfl, second, (SwitchMap.empty_merge shared).symm⟩

/-- The requests of a selection are the flat list of what its origins emit, grouped by switches: every
    switch of the list has its requests in their order, and nothing is lost or there twice. A wire counts
    as often as it is asked, which for a wire in no group is not at all, and the number of all requests
    follows from the numbers of hops. -/
theorem requests_grouped {version : Version} {topology : TopologyFile} {wires : WireFile} {p : Panel}
    {selection : Selection} {m : RequestMap} (read : ofFiles version topology wires = .ok p)
    (made : p.requests selection = .ok m) :
    ∃ parts, p.wiring.Emitted (p.wiring.origins selection) parts ∧
      (∀ part ∈ parts, part.2.map Prod.fst = p.wiring.nodesOf part.1) ∧
      (∀ switch, m.get? switch =
        if switch ∈ (parts.flatMap Prod.snd).map Prod.fst then some (valuesFor switch (parts.flatMap Prod.snd))
        else none) ∧
      (selection = .all → ∃ exclusive shared,
        p.requests .exclusive = .ok exclusive ∧ p.requests .shared = .ok shared ∧
        ∀ switch, m.listOf switch = exclusive.listOf switch ++ shared.listOf switch) ∧
      (∀ name wire, p.wiring.wires.get? name = some wire →
        (valuesFor (.wire name) parts).length =
          (if selection.hasExclusive ∧ wire.isExclusive then 1 else 0) +
            (if selection.hasShared then (p.wiring.groups.values.map fun g => g.wires.count name).sum else 0) ∧
        ∀ es ∈ valuesFor (.wire name) parts, wire.emissions = .ok es) ∧
      (∀ name ∈ p.wiring.ungrouped, valuesFor (.wire name) parts = []) ∧
      m.toList.Perm (parts.flatMap Prod.snd) ∧
      m.toList.length = ((p.wiring.origins selection).map p.wiring.requestCount).sum := by
  obtain ⟨sound, _⟩ := sound_of_ofFiles read
  obtain ⟨parts, emitted, rfl⟩ := requests_emitted sound made
  have rearranged := SwitchMap.toList_ofList_perm (parts.flatMap Prod.snd)
  have asked : ∀ name, (valuesFor (.wire name) parts).length = (p.wiring.origins selection).count (.wire name) := by
    intro name
    rw [length_valuesFor, emitted.inOrder]
  refine ⟨parts, emitted, ?_, SwitchMap.get?_ofList _, ?_, ?_, ?_, rearranged, ?_⟩
  · exact fun part member => (emitted.nodes member).1
  · rintro rfl
    exact requests_all made
  · intro name wire found
    refine ⟨(asked name).trans (sound.count_origins found selection), fun es member => ?_⟩
    obtain ⟨same, there, own⟩ := Wiring.emitted?_wire.mp (emitted.each _ (mem_valuesFor.mp member))
    rw [found] at there
    cases there
    exact own
  · intro name alone
    rw [← List.length_eq_zero_iff, asked, List.count_eq_zero]
    exact sound.not_mem_origins alone selection
  · rw [rearranged.length_eq, emitted.length]

/-- Two groups list one wire and so ask it twice, each with its own broadcasts; the wire in no group is
    not asked. -/
theorem requests_grouped_trunk :
    ∃ p m parts, ofFiles .v13 trunkFile trunkWires = .ok p ∧ p.requests .all = .ok m ∧
      p.wiring.Emitted (p.wiring.origins .all) parts ∧
      (∀ part ∈ parts, part.2.map Prod.fst = p.wiring.nodesOf part.1) ∧
      (∀ switch, m.get? switch =
        if switch ∈ (parts.flatMap Prod.snd).map Prod.fst then some (valuesFor switch (parts.flatMap Prod.snd))
        else none) ∧
      (valuesFor (.wire "x") parts).length = 1 ∧ (valuesFor (.wire "w") parts).length = 2 ∧
      valuesFor (.wire "u") parts = [] ∧ m.toList.length = 16 := by
  obtain ⟨p, read⟩ : ∃ p, ofFiles .v13 trunkFile trunkWires = .ok p := ⟨_, rfl⟩
  obtain ⟨m, made⟩ : ∃ m, p.requests .all = .ok m := by cases read; exact ⟨_, rfl⟩
  obtain ⟨parts, emitted, nodes, lists, _, asked, alone, _, total⟩ := requests_grouped read made
  refine ⟨p, m, parts, read, made, emitted, nodes, lists, ?_, ?_, ?_, ?_⟩
  · cases read
    exact (asked "x" _ rfl).1
  · cases read
    exact (asked "w" _ rfl).1
  · cases read
    exact alone "u" (by decide)
  · cases read
    exact total

end Panel

end PatchPanel
