import PatchPanel.Proofs.Compiling

/-!
Paths written from the other end. A shared wire is read from its test host whichever way its path is
written, so it has the same edge, the same hops and the same requests (`Wire.hops_turned_shared`); an
exclusive wire has the same requests with the two directions exchanged. So a panel whose paths are
turned has its requests exactly where the panel itself has them, in another order at most.
-/
namespace PatchPanel

/-- The other direction of traffic. -/
def Direction.other : Direction → Direction
  | .toDut => .toHost
  | .toHost => .toDut

/-! ### One wire -/

namespace Wire

/-- The wire with its path written from the other end. -/
def turned (w : Wire) : Wire := { w with path := w.path.reverse }

@[simp] theorem turned_turned (w : Wire) : w.turned.turned = w := by
  simp [turned]

theorem lay_turned (t : Topology) (w : Wire) : w.turned.lay t = (w.lay t).turned := by
  simp [turned, lay]

theorem startsAtHost_turned {w : Wire} {starts : Bool} (found : w.startsAtHost = .ok starts) :
    w.turned.startsAtHost = .ok !starts := by
  obtain ⟨head, last, a, z, first, final, boundHead, boundLast, host, dut⟩ := startsAtHost_ok_iff.mp found
  refine startsAtHost_ok_iff.mpr ⟨last, head, z, a, ?_, ?_, boundLast, boundHead, ?_, ?_⟩
  · rw [turned, List.head?_reverse, final]
  · rw [turned, List.getLast?_reverse, first]
  · cases starts <;> exact host
  · cases starts <;> exact dut

private theorem hostEdge_of_turned {w : Wire} {e : Element} (found : w.hostEdge = .ok e) :
    w.turned.hostEdge = .ok e := by
  simp only [hostEdge, bind_eq_ok_iff, pathEnds_ok_iff, pure_eq_ok, Except.ok.injEq] at found ⊢
  obtain ⟨⟨head, last⟩, ⟨first, final⟩, starts, side, rfl⟩ := found
  refine ⟨(last, head), ⟨?_, ?_⟩, !starts, startsAtHost_turned side, ?_⟩
  · rw [turned, List.head?_reverse, final]
  · rw [turned, List.getLast?_reverse, first]
  · cases starts <;> rfl

/-- The edge to the test host is the same element, whichever way the path is written. -/
theorem hostEdge_turned {w : Wire} {e : Element} : w.turned.hostEdge = .ok e ↔ w.hostEdge = .ok e := by
  refine ⟨fun found => ?_, hostEdge_of_turned⟩
  have back := hostEdge_of_turned found
  rwa [turned_turned] at back

@[simp] theorem readPath_turned (w : Wire) (reversed : Bool) : w.turned.readPath (!reversed) = w.readPath reversed := by
  cases reversed <;> simp [readPath, turned]

private theorem hops_of_turned_shared {w : Wire} (shared : w.mode = .shared) {direction : Direction} {hs : List Hop}
    (found : w.hops direction = .ok hs) : w.turned.hops direction = .ok hs := by
  obtain ⟨reversed, read, same, some⟩ := hops_ok_iff.mp found
  refine hops_ok_iff.mpr ⟨!reversed, ?_, by rw [readPath_turned, same], some⟩
  have sharedToo : w.turned.mode = .shared := shared
  cases direction with
  | toDut =>
    simp only [isReversed, shared, sharedToo, map_eq_ok_iff] at read ⊢
    obtain ⟨starts, side, rfl⟩ := read
    exact ⟨!starts, startsAtHost_turned side, rfl⟩
  | toHost =>
    simp only [isReversed, shared, sharedToo] at read ⊢
    exact startsAtHost_turned read

/-- A shared wire has the same hops, whichever way its path is written. -/
theorem hops_turned_shared {w : Wire} (shared : w.mode = .shared) {direction : Direction} {hs : List Hop} :
    w.turned.hops direction = .ok hs ↔ w.hops direction = .ok hs := by
  refine ⟨fun found => ?_, hops_of_turned_shared shared⟩
  have sharedToo : w.turned.mode = .shared := shared
  have back := hops_of_turned_shared sharedToo found
  rwa [turned_turned] at back

/-- An exclusive wire whose path is turned has the hops of the other direction. -/
theorem hops_of_turned_exclusive {w : Wire} (exclusive : w.mode = .exclusive) {direction : Direction} {hs : List Hop}
    (found : w.hops direction = .ok hs) : w.turned.hops direction.other = .ok hs := by
  obtain ⟨reversed, read, same, some⟩ := hops_ok_iff.mp found
  refine hops_ok_iff.mpr ⟨!reversed, ?_, by rw [readPath_turned, same], some⟩
  have exclusiveToo : w.turned.mode = .exclusive := exclusive
  cases direction <;> simp only [isReversed, exclusive, exclusiveToo, Direction.other] at read ⊢ <;> cases read <;> rfl

theorem emit_of_turned_shared {w : Wire} (shared : w.mode = .shared) {direction : Direction} {es : List Emission}
    (emitted : w.emit direction = .ok es) : w.turned.emit direction = .ok es := by
  obtain ⟨hs, p, hops, made, each⟩ := emit_ok_iff.mp emitted
  exact emit_ok_iff.mpr ⟨hs, p, (hops_turned_shared shared).mpr hops, made, each⟩

/-- Requests of exclusive wires are alike in both directions. -/
theorem emit_of_turned_exclusive {w : Wire} (exclusive : w.mode = .exclusive) {direction : Direction}
    {es : List Emission} (emitted : w.emit direction = .ok es) : w.turned.emit direction.other = .ok es := by
  obtain ⟨hs, p, hops, made, each⟩ := emit_ok_iff.mp emitted
  refine emit_ok_iff.mpr ⟨hs, p, hops_of_turned_exclusive exclusive hops, made, each.imp ?_⟩
  rintro h e ⟨node, request⟩
  refine ⟨node, ?_⟩
  rw [profile_exclusive made exclusive] at request ⊢
  rw [← request]
  cases direction <;> simp [Profile.request, Profile.between, Profile.tagAt, Direction.other, Request.forward, turned]

/-- A shared wire that can emit has an edge to its test host and hops in both directions. -/
theorem exists_hops_of_emissions {w : Wire} (shared : w.mode = .shared) {es : List Emission}
    (emitted : w.emissions = .ok es) : (∃ e, w.hostEdge = .ok e) ∧ ∀ direction, ∃ hs, w.hops direction = .ok hs := by
  refine ⟨?_, exists_hops emitted⟩
  obtain ⟨_, hops⟩ := exists_hops emitted .toHost
  obtain ⟨starts, side, _⟩ := hops_ok_iff.mp hops
  simp only [isReversed, shared] at side
  obtain ⟨e, _, edge, _⟩ := exists_hostEdge side
  exact ⟨e, edge⟩

/-- A wire whose path is turned emits the same requests, on an exclusive wire in another order. -/
theorem emissions_of_turned {w : Wire} {es : List Emission} (emitted : w.emissions = .ok es) :
    ∃ fs, w.turned.emissions = .ok fs ∧ fs.Perm es ∧ (w.mode = .shared → fs = es) := by
  obtain ⟨laid, there, back, forth, backwards, rfl⟩ := emissions_ok_iff.mp emitted
  cases mode : w.mode with
  | shared =>
    refine ⟨there ++ back, emissions_ok_iff.mpr ⟨laid, there, back, ?_, ?_, rfl⟩, .refl _, fun _ => rfl⟩
    · exact emit_of_turned_shared mode forth
    · exact emit_of_turned_shared mode backwards
  | exclusive =>
    -- What was emitted towards the host under test is emitted towards the test host now, and so comes last.
    refine ⟨back ++ there, emissions_ok_iff.mpr ⟨laid, back, there, ?_, ?_, rfl⟩, List.perm_append_comm, nofun⟩
    · exact emit_of_turned_exclusive mode backwards
    · exact emit_of_turned_exclusive mode forth

end Wire

/-! ### Files, wirings and panels -/

/-- The entry with its path written from the other end. -/
def WireEntry.turned (entry : WireEntry) : WireEntry := { entry with path := entry.path.map List.reverse }

/-- The file with the paths of the chosen wires written from the other end. -/
def WireFile.turned (turn : String → Bool) (file : WireFile) : WireFile :=
  { file with wires := file.wires.map (Index.mapNamed fun name entry => if turn name then entry.turned else entry) }

namespace Wire

/-- The wire with its path written from the other end if its name is chosen. -/
def turnedIf (turn : String → Bool) (name : String) (w : Wire) : Wire := if turn name then w.turned else w

variable (turn : String → Bool) (name : String)

@[simp] theorem turnedIf_turnedIf (w : Wire) : (w.turnedIf turn name).turnedIf turn name = w := by
  unfold turnedIf
  split <;> simp

@[simp] theorem mode_turnedIf (w : Wire) : (w.turnedIf turn name).mode = w.mode := by
  unfold turnedIf
  split <;> rfl

@[simp] theorem name_turnedIf (w : Wire) : (w.turnedIf turn name).name = w.name := by
  unfold turnedIf
  split <;> rfl

@[simp] theorem version_turnedIf (w : Wire) : (w.turnedIf turn name).version = w.version := by
  unfold turnedIf
  split <;> rfl

theorem ofEntry_turned (version : Version) (entry : WireEntry) :
    ofEntry version name (if turn name then entry.turned else entry) =
      (ofEntry version name entry).map (turnedIf turn name) := by
  by_cases chosen : turn name = true
  · obtain ⟨mode, path, testHost, dutHost⟩ := entry
    have change : turnedIf turn name = turned := by
      funext w
      exact if_pos chosen
    rw [if_pos chosen, change]
    simp only [ofEntry, bind_map_eq, WireEntry.turned]
    cases path with
    | none => rfl
    | some path => simp [requireKey, turned, map_ok_eq]
  · have same : turnedIf turn name = id := by
      funext w
      exact if_neg chosen
    rw [if_neg chosen, same]
    cases ofEntry version name entry <;> rfl

theorem hostEdge_turnedIf {w : Wire} {e : Element} : (w.turnedIf turn name).hostEdge = .ok e ↔ w.hostEdge = .ok e := by
  unfold turnedIf
  split
  · exact hostEdge_turned
  · rfl

theorem hops_turnedIf {w : Wire} (shared : w.mode = .shared) {direction : Direction} {hs : List Hop} :
    (w.turnedIf turn name).hops direction = .ok hs ↔ w.hops direction = .ok hs := by
  unfold turnedIf
  split
  · exact hops_turned_shared shared
  · rfl

theorem emissions_of_turnedIf {w : Wire} {es : List Emission} (emitted : w.emissions = .ok es) :
    ∃ fs, (w.turnedIf turn name).emissions = .ok fs ∧ fs.Perm es ∧
      ((turn name = true → w.mode = .shared) → fs = es) := by
  unfold turnedIf
  split
  · next chosen =>
    obtain ⟨fs, made, perm, same⟩ := emissions_of_turned emitted
    exact ⟨fs, made, perm, fun shared => same (shared chosen)⟩
  · exact ⟨es, emitted, .refl es, fun _ => rfl⟩

end Wire

/-- The broadcasts along a shared wire are the same, whichever way its path is written. -/
theorem Group.emitBroadcast_turnedIf {g : Group} {w : Wire} (shared : w.mode = .shared) {turn : String → Bool}
    {name : String} {ports : List UInt32} {es : List Emission} :
    g.emitBroadcast (w.turnedIf turn name) ports = .ok es ↔ g.emitBroadcast w ports = .ok es := by
  have dut : (w.turnedIf turn name).dutHostPort = w.dutHostPort := by
    unfold Wire.turnedIf
    split <;> rfl
  simp only [emitBroadcast_ok_iff, dut, Wire.hops_turnedIf turn name shared]

namespace Wiring

variable {turn : String → Bool}

/-- The wiring with the paths of the chosen wires written from the other end. -/
def turned (turn : String → Bool) (w : Wiring) : Wiring := w.revise w.version (Wire.turnedIf turn) (fun g => g)

theorem revision_turnedIf (turn : String → Bool) : Revision (Wire.turnedIf turn) (fun g => g) where
  mode name wire := by simp
  lay t name wire := by
    unfold Wire.turnedIf
    split
    · exact Wire.lay_turned t wire
    · rfl
  wires _ := rfl

@[simp] theorem groups_turned (w : Wiring) : (w.turned turn).groups = w.groups := w.groups.map_self

theorem get?_turned (w : Wiring) (name : String) :
    (w.turned turn).wires.get? name = (w.wires.get? name).map (Wire.turnedIf turn name) :=
  Index.get?_mapNamed _ _ name

theorem get?_turned_of_get? {w : Wiring} {name : String} {wire : Wire} (found : w.wires.get? name = some wire) :
    (w.turned turn).wires.get? name = some (wire.turnedIf turn name) := by
  rw [get?_turned, found]
  rfl

@[simp] theorem turned_turned (w : Wiring) : (w.turned turn).turned turn = w := by
  obtain ⟨version, wires, groups⟩ := w
  simp [turned, revise, Index.mapNamed_mapNamed, Index.mapNamed_self, Index.map_self]

/-- Only shared wires are chosen. -/
def TurnsShared (turn : String → Bool) (w : Wiring) : Prop :=
  ∀ name wire, w.wires.get? name = some wire → turn name = true → wire.mode = .shared

theorem origins_turned (turn : String → Bool) (w : Wiring) (selection : Selection) :
    (w.turned turn).origins selection = w.origins selection := by
  have exclusive : (w.turned turn).exclusiveWires.map (fun wire => Origin.wire wire.name) =
      w.exclusiveWires.map fun wire => .wire wire.name := by
    unfold exclusiveWires
    rw [turned, revise, Index.values_mapNamed, Index.values, List.filter_map, List.filter_map, List.map_map,
      List.map_map]
    simp [Function.comp_def, Wire.isExclusive]
  rw [origins, origins, exclusive, groups_turned]

theorem Sound.turned {w : Wiring} (sound : w.Sound) (turn : String → Bool) : (w.turned turn).Sound := by
  refine ⟨?_, ?_, ?_, ?_⟩
  case refine_1 =>
    intro name wire found
    rw [get?_turned] at found
    obtain ⟨before, there, rfl⟩ := Option.map_eq_some_iff.mp found
    rw [Wire.name_turnedIf, Wire.version_turnedIf]
    exact sound.wireName name before there
  case refine_4 =>
    intro g member name named
    rw [groups_turned] at member
    obtain ⟨wire, found, shared⟩ := sound.groupWires g member name named
    exact ⟨_, get?_turned_of_get? found, by rw [Wire.mode_turnedIf, shared]⟩
  all_goals rw [groups_turned]
  case refine_2 => exact sound.groupName
  case refine_3 => exact sound.groupId

theorem hostPort_turnedIf {turn : String → Bool} {name : String} {wire : Wire} {port : UInt32} :
    hostPort (wire.turnedIf turn name) = .ok port ↔ hostPort wire = .ok port := by
  simp only [hostPort_ok_iff, Wire.hostEdge_turnedIf]

theorem broadcastPorts_turned {w : Wiring} {g : Group} {ports : List UInt32} :
    (w.turned turn).broadcastPorts g = .ok ports ↔ w.broadcastPorts g = .ok ports := by
  simp only [broadcastPorts_ok_iff, get?_turned, Option.map_eq_some_iff, ↓existsAndEq, and_true, hostPort_turnedIf]

/-- The broadcasts of a group are the same whichever paths are turned, for the wires of groups are shared. -/
theorem Sound.emitted?_broadcast_turned {w : Wiring} (sound : w.Sound) (turn : String → Bool) {g : Group}
    (member : g ∈ w.groups.values) {es : List Emission} :
    (w.turned turn).emitted? (.broadcast g) = some es ↔ w.emitted? (.broadcast g) = some es := by
  obtain ⟨wire, carries, shared⟩ := sound.groupWires g member g.representative (List.head_mem g.wires_ne_nil)
  simp only [emitted?_broadcast, get?_turned, carries, Option.map_some, Option.some.injEq, broadcastPorts_turned,
    exists_and_left, exists_eq_left', Group.emitBroadcast_turnedIf shared]

/-- What an origin emits, it emits with turned paths as well, in another order only where an exclusive wire
    is turned. -/
theorem Sound.emitted?_of_turned {w : Wiring} (sound : w.Sound) (turn : String → Bool) {selection : Selection}
    {origin : Origin} (member : origin ∈ w.origins selection) {es : List Emission}
    (emitted : w.emitted? origin = some es) :
    ∃ fs, (w.turned turn).emitted? origin = some fs ∧ fs.Perm es ∧ (w.TurnsShared turn → fs = es) := by
  cases origin with
  | wire name =>
    obtain ⟨wire, found, made⟩ := emitted?_wire.mp emitted
    obtain ⟨fs, again, perm, same⟩ := Wire.emissions_of_turnedIf turn name made
    refine ⟨fs, emitted?_wire.mpr ⟨_, get?_turned_of_get? found, again⟩, perm, fun shared => ?_⟩
    exact same (shared name wire found)
  | broadcast g =>
    have again := (sound.emitted?_broadcast_turned turn (broadcast_mem_origins_iff.mp member).2).mpr emitted
    exact ⟨es, again, .refl es, fun _ => rfl⟩

/-- Origins of a selection that can emit can do so with turned paths. -/
theorem Sound.emitted_of_turned {w : Wiring} (sound : w.Sound) (turn : String → Bool) {selection : Selection}
    {origins : List Origin} (selected : ∀ origin ∈ origins, origin ∈ w.origins selection)
    {parts : List (Origin × List Emission)} (emitted : w.Emitted origins parts) :
    ∃ others, (w.turned turn).Emitted origins others ∧ (others.flatMap Prod.snd).Perm (parts.flatMap Prod.snd) ∧
      (w.TurnsShared turn → others = parts) := by
  -- Each part is rearranged within itself, and the parts stay in their order.
  induction origins generalizing parts with
  | nil =>
    cases List.map_eq_nil_iff.mp emitted.inOrder
    exact ⟨[], .nil _, .refl _, fun _ => rfl⟩
  | cons origin origins ih =>
    obtain ⟨es, rest, rfl, first, later⟩ := emitted.cons_inv
    obtain ⟨here, others⟩ := List.forall_mem_cons.mp selected
    obtain ⟨fs, again, perm, same⟩ := sound.emitted?_of_turned turn here first
    obtain ⟨more, emittedLater, permLater, sameLater⟩ := ih others later
    refine ⟨(origin, fs) :: more, (Emitted.single again).append emittedLater, ?_, fun shared => ?_⟩
    · exact perm.append permLater
    · rw [same shared, sameLater shared]

end Wiring

namespace Panel

variable {turn : String → Bool} {p : Panel} {selection : Selection}

/-- The panel with the paths of the chosen wires written from the other end. -/
def turned (turn : String → Bool) (p : Panel) : Panel := ⟨p.topology, p.wiring.turned turn⟩

@[simp] theorem turned_turned (p : Panel) : (p.turned turn).turned turn = p := by
  simp [turned]

theorem ofFiles_turned (version : Version) (topology : TopologyFile) (wires : WireFile) (turn : String → Bool) :
    ofFiles version topology (wires.turned turn) = (ofFiles version topology wires).map (turned turn) := by
  rw [WireFile.turned, ofFiles_revise (Wiring.revision_turnedIf turn)
    (fun name entry => Wire.ofEntry_turned turn name version entry) (fun name entry => ?_)]
  · cases read : ofFiles version topology wires with
    | error fault => rfl
    | ok p =>
      have sameVersion : p.wiring.version = version := (sound_of_ofFiles read).2
      subst sameVersion
      rfl
  · cases Group.ofEntry version name entry <;> rfl

/-- A panel with requests has them with turned paths as well, in another order only where an exclusive wire
    is turned. -/
theorem requests_of_turned (sound : p.wiring.Sound) (turn : String → Bool) {m : RequestMap}
    (made : p.requests selection = .ok m) :
    ∃ k, (p.turned turn).requests selection = .ok k ∧ k.names = m.names ∧
      (∀ switch, (k.listOf switch).Perm (m.listOf switch)) ∧ (p.wiring.TurnsShared turn → k = m) := by
  obtain ⟨parts, emitted, rfl⟩ := requests_emitted sound made
  obtain ⟨others, again, perm, same⟩ := sound.emitted_of_turned turn (fun _ member => member) emitted
  rw [← p.wiring.origins_turned turn] at again
  obtain ⟨names, lists⟩ := SwitchMap.ofList_perm perm
  refine ⟨_, requests_of_emitted (sound.turned turn) again, names, lists, fun shared => ?_⟩
  rw [same shared]

/-- The requests are there with turned paths exactly if they are there without. -/
theorem exists_requests_turned (sound : p.wiring.Sound) (turn : String → Bool) (selection : Selection) :
    (∃ m, p.requests selection = .ok m) ↔ ∃ k, (p.turned turn).requests selection = .ok k := by
  constructor
  · rintro ⟨m, made⟩
    obtain ⟨k, again, _⟩ := requests_of_turned sound turn made
    exact ⟨k, again⟩
  · rintro ⟨k, made⟩
    obtain ⟨m, again, _⟩ := requests_of_turned (sound.turned turn) turn made
    exact ⟨m, by rwa [turned_turned] at again⟩

/-- Turning shared wires changes no request. -/
theorem requests_turned_shared (sound : p.wiring.Sound) (shared : p.wiring.TurnsShared turn) {m : RequestMap} :
    (p.turned turn).requests selection = .ok m ↔ p.requests selection = .ok m := by
  constructor
  · intro made
    obtain ⟨k, before⟩ := (exists_requests_turned sound turn selection).mpr ⟨m, made⟩
    obtain ⟨k', again, _, _, same⟩ := requests_of_turned sound turn before
    cases again.symm.trans made
    rw [before, same shared]
  · intro made
    obtain ⟨k, again, _, _, same⟩ := requests_of_turned sound turn made
    rw [again, same shared]

/-- What two panels have in common that have the same wires with paths written from either end: the edge and
    the hops of every shared wire, and all about the broadcasts of the groups. -/
structure ReadAlike (p q : Panel) : Prop where
  groups : q.wiring.groups = p.wiring.groups
  shared : ∀ name w, p.wiring.wires.get? name = some w → w.mode = .shared → ∃ v, q.wiring.wires.get? name = some v ∧
    (∀ e, v.hostEdge = .ok e ↔ w.hostEdge = .ok e) ∧
    ∀ direction hs, v.hops direction = .ok hs ↔ w.hops direction = .ok hs
  broadcastPorts : ∀ g ∈ p.wiring.groups.values, ∀ ports,
    q.wiring.broadcastPorts g = .ok ports ↔ p.wiring.broadcastPorts g = .ok ports
  broadcasts : ∀ g ∈ p.wiring.groups.values, ∀ m,
    (q.wiring.members g >>= q.wiring.broadcastRequests g) = .ok m ↔
      (p.wiring.members g >>= p.wiring.broadcastRequests g) = .ok m

theorem readAlike_turned (sound : p.wiring.Sound) (turn : String → Bool) : p.ReadAlike (p.turned turn) where
  groups := p.wiring.groups_turned
  shared name w found shared :=
    ⟨w.turnedIf turn name, Wiring.get?_turned_of_get? found, fun _ => Wire.hostEdge_turnedIf turn name,
      fun _ _ => Wire.hops_turnedIf turn name shared⟩
  broadcastPorts g _ ports := Wiring.broadcastPorts_turned
  broadcasts g member m := by
    rw [Wiring.broadcasts_ok_iff, Wiring.broadcasts_ok_iff]
    exact exists_congr fun es => and_congr_left fun _ => sound.emitted?_broadcast_turned turn member

/-- The way that paths are written does not matter. With any paths written from the other end the files are
    read, and the requests are made, exactly if they were before; each switch has the same requests, in another
    order at most; and if only shared wires are turned, the requests and the rules are the same. Shared wires
    have the same edge and the same hops in any case, and groups the same broadcasts. -/
theorem requests_turned (version : Version) (topology : TopologyFile) (wires : WireFile) (turn : String → Bool)
    (selection : Selection) :
    ((∃ p, ofFiles version topology wires = .ok p) ↔ ∃ q, ofFiles version topology (wires.turned turn) = .ok q) ∧
    ∀ p q, ofFiles version topology wires = .ok p → ofFiles version topology (wires.turned turn) = .ok q →
      p.ReadAlike q ∧
      ((∃ m, p.requests selection = .ok m) ↔ ∃ k, q.requests selection = .ok k) ∧
      (∀ m k, p.requests selection = .ok m → q.requests selection = .ok k →
        k.names = m.names ∧ (∀ switch, (k.listOf switch).Perm (m.listOf switch)) ∧
        ∀ name w, .wire name ∈ p.wiring.origins selection → p.wiring.wires.get? name = some w → w.mode = .shared →
          (∃ e, w.hostEdge = .ok e) ∧ ∀ direction, ∃ hs, w.hops direction = .ok hs) ∧
      (p.wiring.TurnsShared turn →
        (∀ m, q.requests selection = .ok m ↔ p.requests selection = .ok m) ∧
        ∀ rules, q.rules selection = .ok rules ↔ p.rules selection = .ok rules) := by
  rw [ofFiles_turned]
  refine ⟨?_, fun p q read readTurned => ?_⟩
  · cases ofFiles version topology wires <;> simp [Except.map]
  · rw [read, map_ok_eq] at readTurned
    cases readTurned
    obtain ⟨sound, _⟩ := sound_of_ofFiles read
    have there := exists_requests_turned sound turn selection
    refine ⟨readAlike_turned sound turn, there, fun m k made madeTurned => ?_, fun shared => ?_⟩
    · obtain ⟨k', again, names, lists, _⟩ := requests_of_turned sound turn made
      cases again.symm.trans madeTurned
      refine ⟨names, lists, fun name w asked found shared => ?_⟩
      obtain ⟨parts, emitted, _⟩ := requests_emitted sound made
      obtain ⟨es, given⟩ := emitted.emitted?_of_mem asked
      obtain ⟨w', same, own⟩ := Wiring.emitted?_wire.mp given
      cases found.symm.trans same
      exact Wire.exists_hops_of_emissions shared own
    · refine ⟨fun m => requests_turned_shared sound shared, fun rules => ?_⟩
      simp only [rules_ok_iff, requests_turned_shared sound shared]
      rfl

/-- Turning the exclusive wire over two switches exchanges its requests on each switch, and turning the shared
    wire of the groups changes nothing. -/
theorem requests_turned_trunk :
    ∃ p q r m k, ofFiles .v13 trunkFile trunkWires = .ok p ∧
      ofFiles .v13 trunkFile (trunkWires.turned fun name => name == "x") = .ok q ∧
      ofFiles .v13 trunkFile (trunkWires.turned fun name => name == "w") = .ok r ∧
      p.requests .all = .ok m ∧ q.requests .all = .ok k ∧ r.requests .all = .ok m ∧
      p.ReadAlike q ∧ p.ReadAlike r ∧ p.wiring.TurnsShared (fun name => name == "w") ∧
      (∀ switch, (k.listOf switch).Perm (m.listOf switch)) ∧
      ((m.listOf "s1").map Request.inPort).take 2 = [some 1, some 2] ∧
      ((k.listOf "s1").map Request.inPort).take 2 = [some 2, some 1] := by
  obtain ⟨p, read⟩ : ∃ p, ofFiles .v13 trunkFile trunkWires = .ok p := ⟨_, rfl⟩
  obtain ⟨m, made⟩ : ∃ m, p.requests .all = .ok m := by cases read; exact ⟨_, rfl⟩
  obtain ⟨someQ, eachQ⟩ := requests_turned .v13 trunkFile trunkWires (fun name => name == "x") .all
  obtain ⟨someR, eachR⟩ := requests_turned .v13 trunkFile trunkWires (fun name => name == "w") .all
  obtain ⟨q, readQ⟩ := someQ.mp ⟨p, read⟩
  obtain ⟨r, readR⟩ := someR.mp ⟨p, read⟩
  obtain ⟨alikeQ, thereQ, listsQ, _⟩ := eachQ p q read readQ
  obtain ⟨alikeR, _, _, sharedR⟩ := eachR p r read readR
  obtain ⟨k, madeQ⟩ := thereQ.mp ⟨m, made⟩
  have shared : p.wiring.TurnsShared (fun name => name == "w") := by
    intro name wire found chosen
    rw [beq_iff_eq.mp chosen] at found
    cases read
    cases found
    rfl
  refine ⟨p, q, r, m, k, read, readQ, readR, made, madeQ, ((sharedR shared).1 m).mpr made, alikeQ, alikeR, shared,
    (listsQ m k made madeQ).2.1, ?_, ?_⟩
  · cases read
    cases made
    rfl
  · cases readQ
    cases madeQ
    rfl

end Panel
end PatchPanel
