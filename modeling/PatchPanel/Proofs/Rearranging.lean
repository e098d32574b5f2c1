import PatchPanel.Proofs.Roles
import PatchPanel.Proofs.Versions

/-!
The order of declarations. Files with the same nodes and ports in any order, whose links differ in their order
and in the order of their ends only, are rearrangements of each other as long as each endpoint keeps its first
link (`TopologyFile.Rearranged`). Either both of them are read or none is, and then their topologies have the
same nodes and ports under the same names (`Topology.Rearranged`). A wire looks endpoints up by name, so nothing
that is made of its wires shows the order (`Panel.requests_rearranged`).
-/
namespace PatchPanel

section
variable {ε α β γ δ : Type}

namespace Index
variable {index : Index α} {other : Index β} {R : α → β → Prop}

/-- Indexes with the same names, in any order, and with related values under each name. -/
def Alike (R : α → β → Prop) (index : Index α) (other : Index β) : Prop :=
  ∀ name, Option.Rel R (index.get? name) (other.get? name)

theorem alike_iff : index.Alike R other ↔
    (∀ name a, index.get? name = some a → ∃ b, other.get? name = some b ∧ R a b) ∧
      ∀ name b, other.get? name = some b → ∃ a, index.get? name = some a ∧ R a b := by
  constructor
  · intro alike
    refine ⟨fun name a found => exists_of_rel (found ▸ alike name), fun name b found => ?_⟩
    have turned : Option.Rel (fun b a => R a b) (other.get? name) (index.get? name) :=
      rel_symm (fun _ _ related => related) (alike name)
    exact exists_of_rel (found ▸ turned)
  · rintro ⟨forth, back⟩ name
    cases found : index.get? name with
    | some a =>
      obtain ⟨b, there, related⟩ := forth name a found
      rw [there]
      exact .some related
    | none =>
      cases there : other.get? name with
      | some b =>
        obtain ⟨a, here, _⟩ := back name b there
        cases found.symm.trans here
      | none => exact .none

namespace Alike

theorem symm {Q : β → α → Prop} (alike : index.Alike R other) (turn : ∀ a b, R a b → Q b a) : other.Alike Q index :=
  fun name => rel_symm turn (alike name)

theorem get?_eq {same : Index α} (alike : index.Alike Eq same) (name : String) : index.get? name = same.get? name := by
  have related := alike name
  generalize index.get? name = found, same.get? name = there at related
  cases related with
  | some equal => rw [equal]
  | none => rfl

theorem contains_eq (alike : index.Alike R other) (name : String) : index.contains name = other.contains name := by
  have related := alike name
  unfold contains
  generalize index.get? name = found, other.get? name = there at related
  cases related <;> rfl

theorem names_perm (alike : index.Alike R other) : index.names.Perm other.names := by
  refine (List.perm_ext_iff_of_nodup index.nodup other.nodup).mpr fun name => ?_
  have known := alike.contains_eq name
  rw [Bool.eq_iff_iff, contains, contains, Option.isSome_iff_exists, Option.isSome_iff_exists] at known
  exact mem_names.trans (known.trans mem_names.symm)

/-- Functions that give related results for related values are applied with related results to all values. -/
theorem traverse {S : γ → δ → Prop} {f : String → α → Except ε γ} {g : String → β → Except ε δ} {result : Index γ}
    (alike : index.Alike R other)
    (each : ∀ name a b c, R a b → f name a = .ok c → ∃ d, g name b = .ok d ∧ S c d)
    (made : index.traverse f = .ok result) : ∃ given, other.traverse g = .ok given ∧ result.Alike S given := by
  obtain ⟨forth, back⟩ := alike_iff.mp alike
  -- a value of the other index has a value of this one beside it, for which the function succeeds
  have succeeds : ∀ name b, other.get? name = some b →
      ∃ c d, result.get? name = some c ∧ g name b = .ok d ∧ S c d := by
    intro name b found
    obtain ⟨a, here, related⟩ := back name b found
    obtain ⟨c, known⟩ := exists_get?_of_traverse made (Option.isSome_of_eq_some here)
    obtain ⟨a', again, same⟩ := get?_of_traverse made known
    cases here.symm.trans again
    obtain ⟨d, there, results⟩ := each name a b c related same
    exact ⟨c, d, known, there, results⟩
  obtain ⟨given, madeToo⟩ := exists_traverse fun name b found => by
    obtain ⟨_, d, _, there, _⟩ := succeeds name b found
    exact ⟨d, there⟩
  refine ⟨given, madeToo, alike_iff.mpr ⟨fun name c known => ?_, fun name d known => ?_⟩⟩
  · obtain ⟨a, found, same⟩ := (get?_traverse_iff made).mp known
    obtain ⟨b, there, related⟩ := forth name a found
    obtain ⟨d, gives, results⟩ := each name a b c related same
    exact ⟨d, (get?_traverse_iff madeToo).mpr ⟨b, there, gives⟩, results⟩
  · obtain ⟨b, found, gives⟩ := (get?_traverse_iff madeToo).mp known
    obtain ⟨c, d', here, again, results⟩ := succeeds name b found
    cases gives.symm.trans again
    exact ⟨c, here, results⟩

theorem refl {Q : α → α → Prop} (own : ∀ a, Q a a) (index : Index α) : index.Alike Q index := by
  intro name
  cases index.get? name with
  | some a => exact .some (own a)
  | none => exact .none

end Alike

/-- Entries in another order, with related values in the place of the old ones. -/
theorem alike_of_perm {between : List (String × α)} (order : index.entries.Perm between)
    (each : List.Forall₂ (fun e f => f.1 = e.1 ∧ R e.2 f.2) between other.entries) : index.Alike R other := by
  refine alike_iff.mpr ⟨fun name a found => ?_, fun name b found => ?_⟩
  · have member := order.mem_iff.mp (get?_eq_some_iff.mp found)
    obtain ⟨⟨key, b⟩, there, same, related⟩ := exists_left_of_forall₂ each.flip member
    cases same
    exact ⟨b, get?_eq_some_iff.mpr there, related⟩
  · obtain ⟨⟨key, a⟩, member, same, related⟩ := exists_left_of_forall₂ each (get?_eq_some_iff.mp found)
    cases same
    exact ⟨a, get?_eq_some_iff.mpr (order.mem_iff.mpr member), related⟩

end Index
end

/-! ### Rearranged files -/

/-- A switch with the same datapath id and the same ports, in any order. -/
structure SwitchEntry.Alike (a b : SwitchEntry) : Prop where
  datapathId : a.datapathId = b.datapathId
  ports : a.ports.Alike Eq b.ports

/-- A host with the same ports, in any order. -/
structure HostEntry.Alike (a b : HostEntry) : Prop where
  ports : a.ports.Alike Eq b.ports

/-- A file with the same declarations in any order: nodes within their sections, and ports within their nodes.
    Links may be turned and reordered as long as each endpoint keeps its first link. -/
structure TopologyFile.Rearranged (a b : TopologyFile) : Prop where
  switches : Option.Rel (Index.Alike SwitchEntry.Alike) a.switches b.switches
  testHosts : Option.Rel (Index.Alike HostEntry.Alike) a.testHosts b.testHosts
  dutHosts : Option.Rel (Index.Alike HostEntry.Alike) a.dutHosts b.dutHosts
  links : Option.Rel SameFirstLinks a.links b.links

/-- Sections with the same declarations in any order, and links that lead to the same ends. -/
structure TopologySections.Rearranged (a b : TopologySections) : Prop where
  switches : a.switches.Alike SwitchEntry.Alike b.switches
  testHosts : a.testHosts.Alike HostEntry.Alike b.testHosts
  dutHosts : a.dutHosts.Alike HostEntry.Alike b.dutHosts
  links : ∀ e, a.links.farEnd? e = b.links.farEnd? e

/-- A node with the same name, kind, datapath id and ports, these in any order. -/
structure Node.Alike (a b : Node) : Prop where
  called : a.name = b.name
  kind : a.kind = b.kind
  datapathId : a.datapathId = b.datapathId
  ports : a.ports.Alike Eq b.ports

/-- A topology with the same nodes in any order. -/
structure Topology.Rearranged (a b : Topology) : Prop where
  switches : a.switches.Alike Node.Alike b.switches
  testHosts : a.testHosts.Alike Node.Alike b.testHosts
  dutHosts : a.dutHosts.Alike Node.Alike b.dutHosts

theorem Index.alike_eq_symm {α : Type} {index other : Index α} (alike : index.Alike Eq other) : other.Alike Eq index :=
  alike.symm fun _ _ => Eq.symm

theorem SwitchEntry.Alike.symm {a b : SwitchEntry} (alike : a.Alike b) : b.Alike a :=
  ⟨alike.datapathId.symm, Index.alike_eq_symm alike.ports⟩

theorem HostEntry.Alike.symm {a b : HostEntry} (alike : a.Alike b) : b.Alike a := ⟨Index.alike_eq_symm alike.ports⟩

namespace TopologySections
variable {s u : TopologySections}

namespace Rearranged

theorem names_perm (same : s.Rearranged u) : s.names.Perm u.names :=
  (same.switches.names_perm.append same.testHosts.names_perm).append same.dutHosts.names_perm

theorem kind?_eq (same : s.Rearranged u) (name : String) : s.kind? name = u.kind? name := by
  rw [kind?, kind?, same.testHosts.contains_eq, same.dutHosts.contains_eq, same.switches.contains_eq]

theorem resolvePort_eq (same : s.Rearranged u) (kind : NodeKind) (e : Endpoint) (data : Json) :
    s.resolvePort kind e data = u.resolvePort kind e data := by
  have far : s.farKind e = u.farKind e := by
    rw [farKind, farKind, same.links]
    split
    · rfl
    · rw [same.kind?_eq]
  rw [resolvePort, resolvePort, far]

theorem resolveNode_eq (same : s.Rearranged u) (kind : NodeKind) (datapathId : UInt64) (ports : Index Json)
    (name : String) : s.resolveNode kind datapathId ports name = u.resolveNode kind datapathId ports name := by
  simp only [TopologySections.resolveNode, same.resolvePort_eq]

/-- A node is resolved alike from both sections, whatever the order of its ports. -/
theorem resolveNode (same : s.Rearranged u) {kind : NodeKind} {datapathId : UInt64} {ports others : Index Json}
    (alike : ports.Alike Eq others) {name : String} {n : Node}
    (resolved : s.resolveNode kind datapathId ports name = .ok n) :
    ∃ m, u.resolveNode kind datapathId others name = .ok m ∧ n.Alike m := by
  rw [same.resolveNode_eq] at resolved
  obtain ⟨found, each, rfl⟩ := resolveNode_ok_iff.mp resolved
  obtain ⟨given, made, results⟩ := alike.traverse (S := Eq) (fun port data other p equal here =>
    ⟨p, equal ▸ here, rfl⟩) each
  exact ⟨_, resolveNode_ok_iff.mpr ⟨given, made, rfl⟩, rfl, rfl, rfl, results⟩

/-- Rearranged sections are resolved to rearranged topologies. -/
theorem resolves (same : s.Rearranged u) {t : Topology} (made : s.Resolves t) :
    ∃ t', u.Resolves t' ∧ t.Rearranged t' := by
  obtain ⟨switches, ofSwitches, switchesAlike⟩ := same.switches.traverse
    (g := fun name entry => u.resolveNode .switch entry.datapathId entry.ports name)
    (fun name a b n alike here => same.resolveNode alike.ports (alike.datapathId ▸ here)) made.switches
  obtain ⟨testHosts, ofTestHosts, testHostsAlike⟩ := same.testHosts.traverse
    (g := fun name entry => u.resolveNode .testHost 0 entry.ports name)
    (fun name a b n alike here => same.resolveNode alike.ports here) made.testHosts
  obtain ⟨dutHosts, ofDutHosts, dutHostsAlike⟩ := same.dutHosts.traverse
    (g := fun name entry => u.resolveNode .dutHost 0 entry.ports name)
    (fun name a b n alike here => same.resolveNode alike.ports here) made.dutHosts
  exact ⟨⟨switches, testHosts, dutHosts, u.links⟩, ⟨ofSwitches, ofTestHosts, ofDutHosts, rfl⟩,
    switchesAlike, testHostsAlike, dutHostsAlike⟩

end Rearranged
end TopologySections

namespace TopologyFile.Rearranged
variable {file other : TopologyFile}

theorem symm (same : file.Rearranged other) : other.Rearranged file where
  switches := rel_symm (fun _ _ alike => alike.symm fun _ _ => SwitchEntry.Alike.symm) same.switches
  testHosts := rel_symm (fun _ _ alike => alike.symm fun _ _ => HostEntry.Alike.symm) same.testHosts
  dutHosts := rel_symm (fun _ _ alike => alike.symm fun _ _ => HostEntry.Alike.symm) same.dutHosts
  links := rel_symm (fun _ _ first => SameFirstLinks.symm first) same.links

/-- Sections that are all there in one file are all there in the other. -/
theorem sections (same : file.Rearranged other) {s : TopologySections} (found : TopologySections.ofFile file = .ok s) :
    ∃ u, TopologySections.ofFile other = .ok u ∧ s.Rearranged u := by
  obtain ⟨links, table, rfl⟩ := TopologySections.ofFile_ok_iff.mp found
  obtain ⟨_, _, _, _⟩ := other
  obtain ⟨switches, testHosts, dutHosts, linksAlike⟩ := same
  cases switches with | some switches =>
  cases testHosts with | some testHosts =>
  cases dutHosts with | some dutHosts =>
  cases linksAlike with | some first =>
  exact ⟨_, rfl, switches, testHosts, dutHosts, fun e => by rw [table]; exact (first.farEnd?_eq e).symm⟩

/-- A rearranged file is read to a rearranged topology. -/
theorem topology (same : file.Rearranged other) {t : Topology} (read : Topology.ofFile file = .ok t) :
    ∃ t', Topology.ofFile other = .ok t' ∧ t.Rearranged t' := by
  obtain ⟨s, found, distinct, resolves⟩ := Topology.ofFile_ok_iff.mp read
  obtain ⟨u, foundToo, alike⟩ := same.sections found
  obtain ⟨t', resolvesToo, topologies⟩ := alike.resolves resolves
  exact ⟨t', Topology.ofFile_ok_iff.mpr ⟨u, foundToo, alike.names_perm.nodup_iff.mp distinct, resolvesToo⟩, topologies⟩

end TopologyFile.Rearranged

namespace Topology.Rearranged
variable {t t' : Topology}

theorem node? (same : t.Rearranged t') (name : String) : Option.Rel Node.Alike (t.node? name) (t'.node? name) :=
  rel_or (same.testHosts name) (rel_or (same.dutHosts name) (same.switches name))

theorem port?_eq (same : t.Rearranged t') (e : Endpoint) : t.port? e = t'.port? e :=
  rel_bind_eq (same.node? e.node) fun _ _ alike => alike.ports.get?_eq e.port

theorem switchPort?_eq (same : t.Rearranged t') (e : Endpoint) : t.switchPort? e = t'.switchPort? e :=
  rel_bind_eq (same.switches e.node) fun _ _ alike => alike.ports.get?_eq e.port

/-- Endpoints are bound to the same ports. -/
theorem bound?_eq (same : t.Rearranged t') (e : Endpoint) : t.bound? e = t'.bound? e :=
  rel_bind_eq (same.node? e.node) fun _ _ alike => by
    rw [alike.ports.get?_eq e.port, alike.kind, alike.datapathId]

/-- Wires are laid over both topologies with the same ports. -/
theorem lay_eq (same : t.Rearranged t') (w : Wiring) : w.lay t = w.lay t' := by
  have bind : Element.bind t = Element.bind t' := by
    funext e
    rw [Element.bind, Element.bind, same.bound?_eq]
  have lay : Wire.lay t = Wire.lay t' := by
    funext wire
    rw [Wire.lay, Wire.lay, bind]
  rw [Wiring.lay, Wiring.lay, lay]

end Topology.Rearranged

namespace Panel

theorem ofFiles_of_topology {topology : TopologyFile} {t : Topology} (read : Topology.ofFile topology = .ok t)
    (version : Version) (wires : WireFile) :
    ofFiles version topology wires =
      ((Wiring.ofFile version wires).mapError DefinitionFault.wiring).map fun w => ⟨t, w.lay t⟩ := by
  rw [ofFiles, read]
  cases Wiring.ofFile version wires <;> rfl

/-- The order of the declarations in a topology file does not matter. Either both of two rearranged files are
    read or none is. Then a name leads to the same node, but for the order of its ports, and an endpoint to the
    same port; and every wire file gives the same requests and the same rules, or the same fault. -/
theorem requests_rearranged {file other : TopologyFile} (same : file.Rearranged other) :
    ((∃ t, Topology.ofFile file = .ok t) ↔ ∃ t, Topology.ofFile other = .ok t) ∧
      ∀ t t', Topology.ofFile file = .ok t → Topology.ofFile other = .ok t' →
        (∀ name, Option.Rel Node.Alike (t.node? name) (t'.node? name)) ∧
        (∀ e, t.port? e = t'.port? e ∧ t.switchPort? e = t'.switchPort? e) ∧
        ∀ version wires selection,
          requestsOfFiles version file wires selection = requestsOfFiles version other wires selection ∧
          rulesOfFiles version file wires selection = rulesOfFiles version other wires selection := by
  refine ⟨⟨?_, ?_⟩, fun t t' read readToo => ?_⟩
  · rintro ⟨t, read⟩
    obtain ⟨t', readToo, _⟩ := same.topology read
    exact ⟨t', readToo⟩
  · rintro ⟨t', read⟩
    obtain ⟨t, readToo, _⟩ := same.symm.topology read
    exact ⟨t, readToo⟩
  · obtain ⟨_, again, topologies⟩ := same.topology read
    cases readToo.symm.trans again
    refine ⟨topologies.node?, fun e => ⟨topologies.port?_eq e, topologies.switchPort?_eq e⟩, ?_⟩
    intro version wires selection
    rw [requestsOfFiles, requestsOfFiles, rulesOfFiles, rulesOfFiles, ofFiles_of_topology read,
      ofFiles_of_topology readToo]
    -- both panels have one wiring, and requests and rules are made of the wiring alone
    cases Wiring.ofFile version wires with
    | error fault => exact ⟨rfl, rfl⟩
    | ok w =>
      show requests ⟨t, w.lay t⟩ selection = requests ⟨t', w.lay t'⟩ selection ∧
        rules ⟨t, w.lay t⟩ selection = rules ⟨t', w.lay t'⟩ selection
      rw [topologies.lay_eq w]
      exact ⟨rfl, rfl⟩

private def outlet (port : String) (number : UInt64) : String × Json := (port, .object [("number", .natural number)])

/-- The trunk with its switches, their ports and the links in another order, and all links turned. -/
def turnedTrunkFile : TopologyFile where
  switches := some (.ofList [
    ("s2", ⟨2, .ofList [outlet "p2" 2, outlet "p1" 1]⟩),
    ("s1", ⟨1, .ofList [outlet "p2" 2, outlet "p1" 1]⟩)])
  testHosts := trunkFile.testHosts
  dutHosts := trunkFile.dutHosts
  links := some [⟨⟨"d", "e"⟩, ⟨"s2", "p2"⟩⟩, ⟨⟨"s1", "p1"⟩, ⟨"h", "e"⟩⟩, ⟨⟨"s2", "p1"⟩, ⟨"s1", "p2"⟩⟩]

theorem rearranged_turnedTrunkFile : trunkFile.Rearranged turnedTrunkFile where
  switches := by
    have ports : (Index.ofList [outlet "p1" 1, outlet "p2" 2]).Alike Eq (.ofList [outlet "p2" 2, outlet "p1" 1]) :=
      Index.alike_of_perm (.swap _ _ _) (.cons ⟨rfl, rfl⟩ (.cons ⟨rfl, rfl⟩ .nil))
    exact .some (Index.alike_of_perm (.swap _ _ _) (.cons ⟨rfl, rfl, ports⟩ (.cons ⟨rfl, rfl, ports⟩ .nil)))
  testHosts := .some (.refl (fun _ => ⟨.refl (fun _ => rfl) _⟩) _)
  dutHosts := .some (.refl (fun _ => ⟨.refl (fun _ => rfl) _⟩) _)
  links := by
    have reordered : SameFirstLinks
        [⟨⟨"h", "e"⟩, ⟨"s1", "p1"⟩⟩, ⟨⟨"s1", "p2"⟩, ⟨"s2", "p1"⟩⟩, ⟨⟨"s2", "p2"⟩, ⟨"d", "e"⟩⟩]
        [⟨⟨"s2", "p2"⟩, ⟨"d", "e"⟩⟩, ⟨⟨"h", "e"⟩, ⟨"s1", "p1"⟩⟩, ⟨⟨"s1", "p2"⟩, ⟨"s2", "p1"⟩⟩] :=
      .of_perm (by decide) (by decide)
    exact .some (reordered.trans (.of_exchanged (.cons (.inr rfl) (.cons (.inr rfl) (.cons (.inr rfl) .nil)))))

/-- The trunk has the same rules as before. -/
theorem requests_rearranged_trunk :
    trunkFile.Rearranged turnedTrunkFile ∧ trunkFile ≠ turnedTrunkFile ∧
      ∃ t t', Topology.ofFile trunkFile = .ok t ∧ Topology.ofFile turnedTrunkFile = .ok t' ∧
        t.port? ⟨"s2", "p2"⟩ = t'.port? ⟨"s2", "p2"⟩ ∧
        ∃ m, rulesOfFiles .v13 trunkFile trunkWires .all = .ok m ∧
          rulesOfFiles .v13 turnedTrunkFile trunkWires .all = .ok m ∧ m.names = ["s1", "s2"] := by
  have same := rearranged_turnedTrunkFile
  obtain ⟨t, read⟩ : ∃ t, Topology.ofFile trunkFile = .ok t := ⟨_, rfl⟩
  obtain ⟨t', readToo⟩ := (requests_rearranged same).1.mp ⟨t, read⟩
  obtain ⟨_, ports, results⟩ := (requests_rearranged same).2 t t' read readToo
  obtain ⟨m, made, names⟩ : ∃ m, rulesOfFiles .v13 trunkFile trunkWires .all = .ok m ∧ m.names = ["s1", "s2"] :=
    ⟨_, rfl, rfl⟩
  refine ⟨same, by decide, t, t', read, readToo, (ports _).1, m, made, ?_, names⟩
  rw [← (results .v13 trunkWires .all).2, made]

end Panel
end PatchPanel
