import PatchPanel.Proofs.Emissions
import PatchPanel.Proofs.Links
import PatchPanel.Proofs.Resolution

/-!
What a topology keeps of its file and what it adds. Its nodes are the declared ones in their order, with their
ports, port data and datapath ids (`NodeEntry.Becomes`). What it adds is the role of each port, which follows
from the data of the port, the kind of its node and the kind of the node at the far end of the first link of
the port (`PortRole.Resolved`). Since a name is given once, it does not matter in which order the kinds of nodes
are searched for it (`Topology.nodes_resolved`).
-/
namespace PatchPanel

/-! ### Declared nodes -/

/-- A node as a file declares it. Hosts are declared without a datapath id, which then counts as zero. -/
structure NodeEntry where
  name : String
  kind : NodeKind
  datapathId : UInt64
  ports : Index Json

/-- The declared nodes: switches, then test hosts, then hosts under test, each in the order of the file. -/
def TopologyFile.declared (file : TopologyFile) : List NodeEntry :=
  ((file.switches.getD .empty).entries.map fun e => ⟨e.1, .switch, e.2.datapathId, e.2.ports⟩) ++
    ((file.testHosts.getD .empty).entries.map fun e => ⟨e.1, .testHost, 0, e.2.ports⟩) ++
    ((file.dutHosts.getD .empty).entries.map fun e => ⟨e.1, .dutHost, 0, e.2.ports⟩)

/-- A port of a topology with the data that is declared for it at an endpoint. The first link of the endpoint
    leads to a node, and the kind of this node decides on the role. -/
structure Port.Becomes (links : List Link) (t : Topology) (kind : NodeKind) (e : Endpoint) (data : Json)
    (p : Port) : Prop where
  called : p.name = e.port
  keeps : p.data = data
  role : ∃ l far m, firstLink? links e = some l ∧ l.farEnd? e = some far ∧ t.node? far.node = some m ∧
    p.role.Resolved kind m.kind data

/-- A node of a topology with the name, the kind, the datapath id and the ports of a declared node. -/
structure NodeEntry.Becomes (links : List Link) (t : Topology) (d : NodeEntry) (n : Node) : Prop where
  called : n.name = d.name
  ofKind : n.kind = d.kind
  datapathId : n.datapathId = d.datapathId
  ports : List.Forall₂ (fun entry found => found.1 = entry.1 ∧
    Port.Becomes links t d.kind ⟨d.name, entry.1⟩ entry.2 found.2) d.ports.entries n.ports.entries

theorem Index.forall₂_of_traverse {ε α β δ : Type} {R : δ → β → Prop} {index : Index α} {f : String → α → Except ε β}
    {result : Index β} (made : index.traverse f = .ok result) {declare : String × α → δ}
    (each : ∀ e b, f e.1 e.2 = .ok b → R (declare e) b) :
    List.Forall₂ R (index.entries.map declare) result.values := by
  rw [Index.values, List.forall₂_map_left_iff, List.forall₂_map_right_iff]
  exact (Index.traverse_ok_iff.mp made).imp fun e r here => each e r.2 here.2

namespace TopologySections
variable {s : TopologySections} {t : Topology} {links : List Link}

theorem becomes_of_resolvePort (sound : t.Sound) (resolves : s.Resolves t) (table : s.links = .ofLinks links)
    {kind : NodeKind} {e : Endpoint} {data : Json} {p : Port} (resolved : s.resolvePort kind e data = .ok p) :
    p.Becomes links t kind e data := by
  obtain ⟨farKind, role, leads, ofRole, rfl⟩ := resolvePort_ok_iff.mp resolved
  obtain ⟨far, linked, known⟩ := farKind_ok_iff.mp leads
  rw [table, LinkTable.farEnd?_ofLinks, Option.bind_eq_some_iff] at linked
  obtain ⟨l, first, leadsTo⟩ := linked
  obtain ⟨m, found, rfl⟩ := sound.exists_of_kind? resolves known
  exact ⟨rfl, rfl, l, far, m, first, leadsTo, found, ofRole⟩

theorem becomes_of_resolveNode (sound : t.Sound) (resolves : s.Resolves t) (table : s.links = .ofLinks links)
    {d : NodeEntry} {n : Node} (resolved : s.resolveNode d.kind d.datapathId d.ports d.name = .ok n) :
    d.Becomes links t n := by
  obtain ⟨ports, each, rfl⟩ := resolveNode_ok_iff.mp resolved
  refine ⟨rfl, rfl, rfl, (Index.traverse_ok_iff.mp each).imp fun entry found here => ⟨here.1, ?_⟩⟩
  exact becomes_of_resolvePort sound resolves table (mapError_eq_ok_iff.mp here.2)

end TopologySections

namespace Topology

/-- A node stands under its own name, and only there. -/
theorem Sound.node?_iff_mem {t : Topology} (sound : t.Sound) {name : String} {n : Node} :
    t.node? name = some n ↔ n ∈ t.nodes ∧ n.name = name := by
  rw [sound.node?_eq_some_iff, nodes, List.mem_append, List.mem_append, Index.mem_values, Index.mem_values,
    Index.mem_values]
  constructor
  · rintro (switch | testHost | dutHost)
    · exact ⟨.inl (.inl ⟨name, switch⟩), (sound.switches name n switch).called⟩
    · exact ⟨.inl (.inr ⟨name, testHost⟩), (sound.testHosts name n testHost).called⟩
    · exact ⟨.inr ⟨name, dutHost⟩, (sound.dutHosts name n dutHost).called⟩
  · rintro ⟨(⟨key, switch⟩ | ⟨key, testHost⟩) | ⟨key, dutHost⟩, rfl⟩
    · rw [(sound.switches key n switch).called]
      exact .inl switch
    · rw [(sound.testHosts key n testHost).called]
      exact .inr (.inl testHost)
    · rw [(sound.dutHosts key n dutHost).called]
      exact .inr (.inr dutHost)

/-- The kinds of nodes may be searched for a name in any order. -/
theorem Sound.findSome?_eq {t : Topology} (sound : t.Sound) {indexes : List (Index Node)}
    (order : indexes.Perm [t.switches, t.testHosts, t.dutHosts]) (name : String) :
    indexes.findSome? (fun index => index.get? name) = t.node? name := by
  have found : ∀ n, (∃ index ∈ indexes, index.get? name = some n) ↔ t.node? name = some n := by
    intro n
    simp [order.mem_iff, sound.node?_eq_some_iff]
  cases search : indexes.findSome? fun index => index.get? name with
  | some n => exact ((found n).mp (List.exists_of_findSome?_eq_some search)).symm
  | none =>
    refine (Option.eq_none_iff_forall_ne_some.mpr fun n known => ?_).symm
    obtain ⟨index, member, here⟩ := (found n).mpr known
    rw [List.findSome?_eq_none_iff.mp search index member] at here
    cases here

theorem forall₂_becomes {file : TopologyFile} {t : Topology} (read : ofFile file = .ok t) :
    List.Forall₂ (NodeEntry.Becomes (file.links.getD []) t) file.declared t.nodes := by
  have sound := sound_of_ofFile read
  obtain ⟨s, sections, _, resolves⟩ := ofFile_ok_iff.mp read
  obtain ⟨links, table, rfl⟩ := TopologySections.ofFile_ok_iff.mp sections
  refine List.rel_append (List.rel_append ?_ ?_) ?_
  · exact Index.forall₂_of_traverse resolves.switches fun e n made =>
      TopologySections.becomes_of_resolveNode (d := ⟨e.1, .switch, e.2.datapathId, e.2.ports⟩) sound resolves table made
  · exact Index.forall₂_of_traverse resolves.testHosts fun e n made =>
      TopologySections.becomes_of_resolveNode (d := ⟨e.1, .testHost, 0, e.2.ports⟩) sound resolves table made
  · exact Index.forall₂_of_traverse resolves.dutHosts fun e n made =>
      TopologySections.becomes_of_resolveNode (d := ⟨e.1, .dutHost, 0, e.2.ports⟩) sound resolves table made

/-- A file that is read has all sections, and no name twice. The nodes of its topology are the declared ones in
    their order, each with its ports, their data and its datapath id; hosts have neither a datapath id nor port
    numbers. The role of a port is resolved from the first link of the port and the node at its far end. The
    links are kept. A name leads to the node of this name, in whatever order the kinds of nodes are searched. -/
theorem nodes_resolved {file : TopologyFile} {t : Topology} (read : ofFile file = .ok t) :
    (file.switches.isSome ∧ file.testHosts.isSome ∧ file.dutHosts.isSome ∧ file.links.isSome) ∧
      (file.declared.map NodeEntry.name).Nodup ∧
      List.Forall₂ (NodeEntry.Becomes (file.links.getD []) t) file.declared t.nodes ∧
      (∀ n ∈ t.nodes, n.kind ≠ .switch →
        n.datapathId = 0 ∧ ∀ port p, n.ports.get? port = some p → p.number = 0) ∧
      t.links = .ofLinks (file.links.getD []) ∧
      (∀ name n, t.node? name = some n ↔ n ∈ t.nodes ∧ n.name = name) ∧
      ∀ indexes : List (Index Node), indexes.Perm [t.switches, t.testHosts, t.dutHosts] →
        ∀ name, indexes.findSome? (fun index => index.get? name) = t.node? name := by
  have sound := sound_of_ofFile read
  have becomes := forall₂_becomes read
  obtain ⟨s, sections, distinct, resolves⟩ := ofFile_ok_iff.mp read
  obtain ⟨links, table, rfl⟩ := TopologySections.ofFile_ok_iff.mp sections
  refine ⟨⟨rfl, rfl, rfl, rfl⟩, ?_, becomes, ?_, resolves.links.trans table,
    fun name n => sound.node?_iff_mem, fun indexes => sound.findSome?_eq⟩
  · simpa [TopologyFile.declared, TopologySections.names, Index.names, Function.comp_def] using distinct
  · intro n member
    exact (sound.standsAs (sound.node?_iff_mem.mpr ⟨member, rfl⟩)).host

/-- The plain port of the host under test has the VLAN id zero, and the port of the second switch that leads
    to it is found by the link of this port. -/
theorem nodes_resolved_twin :
    ∃ t, ofFile twinFile = .ok t ∧ t.nodes.map Node.name = ["s1", "s2", "h1", "h2", "d"] ∧
      List.Forall₂ (NodeEntry.Becomes (twinFile.links.getD []) t) twinFile.declared t.nodes ∧
      (∃ n p, t.node? "d" = some n ∧ n ∈ t.nodes ∧ n.ports.get? "e1" = some p ∧ p.role = .dutHost ⟨0, false⟩) ∧
      ∃ p, t.port? ⟨"s2", "p3"⟩ = some p ∧ p.role = .switch .dutHost 3 := by
  obtain ⟨t, read⟩ : ∃ t, ofFile twinFile = .ok t := ⟨_, rfl⟩
  obtain ⟨_, _, becomes, _, _, named, _⟩ := nodes_resolved read
  obtain ⟨n, found⟩ : ∃ n, t.node? "d" = some n := by cases read; exact ⟨_, rfl⟩
  refine ⟨t, read, ?_, becomes, ⟨n, ?_⟩, ?_⟩
  · cases read; rfl
  · have member := ((named "d" n).mp found).1
    cases read
    cases found
    exact ⟨_, rfl, member, rfl, rfl⟩
  · cases read
    exact ⟨_, rfl, rfl⟩

end Topology
end PatchPanel
