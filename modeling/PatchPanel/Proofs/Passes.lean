import PatchPanel.Proofs.Resolution

/-!
Roles in two passes. One may first find the roles of all ports while the nodes stand as the file has them
(`TopologySections.resolvePorts`), and then put the ports back by the kind and the name of their node and by their own
name (`Topology.putPort`). The first pass finds the ports of the resolved nodes, or the first fault
(`resolvePorts_unresolved`). The second gives the resolved nodes, whatever stood in the place of the roles before
(`Resolves.foldl_putPort`). So nothing else comes of it than of resolving node by node (`resolve_eq_putPorts`).
-/
namespace PatchPanel

/-! ### Values that are replaced one by one -/

namespace Index
variable {α : Type}

theorem putEntry_append {done : List (String × α)} {name : String} (fresh : name ∉ done.map Prod.fst) (old value : α)
    (rest : List (String × α)) :
    putEntry name value (done ++ (name, old) :: rest) = done ++ (name, value) :: rest := by
  induction done with
  | nil => exact if_pos rfl
  | cons e done ih =>
    rw [List.map_cons, List.mem_cons, not_or] at fresh
    rw [List.cons_append, putEntry, if_neg (Ne.symm fresh.1), ih fresh.2, List.cons_append]

/-- A value under a name that is there takes the place of the old one. -/
theorem entries_put {index : Index α} {done rest : List (String × α)} {name : String} {old : α}
    (split : index.entries = done ++ (name, old) :: rest) (value : α) :
    (index.put name value).entries = done ++ (name, value) :: rest := by
  have distinct := index.nodup
  rw [split, List.map_append, List.map_cons] at distinct
  have fresh : name ∉ done.map Prod.fst := fun member =>
    (List.nodup_append.mp distinct).2.2 name member name List.mem_cons_self rfl
  calc (index.put name value).entries
    _ = putEntry name value index.entries := rfl
    _ = done ++ (name, value) :: rest := by rw [split, putEntry_append fresh]

/-- A step puts a new value in the place of a related old one, wherever it stands. -/
def Replaces (step : Index α → String × α → Index α) (R : String → α → α → Prop) : Prop :=
  ∀ (index : Index α) (done rest : List (String × α)) (name : String) (old new : α),
    index.entries = done ++ (name, old) :: rest → R name old new →
      (step index (name, new)).entries = done ++ (name, new) :: rest

section
variable {step : Index α → String × α → Index α} {R : String → α → α → Prop}

/-- The invariant of a run: new values in front, old ones behind. -/
theorem Replaces.entries_foldl (replaces : Replaces step R) {olds news : List (String × α)}
    (each : List.Forall₂ (fun e r => r.1 = e.1 ∧ R e.1 e.2 r.2) olds news) {done : List (String × α)} {index : Index α}
    (split : index.entries = done ++ olds) : (news.foldl step index).entries = done ++ news := by
  induction each generalizing done index with
  | nil => exact split
  | @cons e r olds news here _ ih =>
    obtain ⟨name, old⟩ := e
    obtain ⟨key, new⟩ := r
    obtain ⟨same, related⟩ := here
    cases same
    have next := replaces index done olds name old new split related
    rw [List.append_cons] at next
    rw [List.foldl_cons, ih next, List.append_assoc, List.singleton_append]

/-- Steps that replace all values, name after name, leave the new values. -/
theorem Replaces.foldl_eq (replaces : Replaces step R) {index result : Index α}
    (each : List.Forall₂ (fun e r => r.1 = e.1 ∧ R e.1 e.2 r.2) index.entries result.entries) :
    result.entries.foldl step index = result :=
  entries_injective (replaces.entries_foldl each (List.nil_append _).symm)

end

/-! ### Putting ports back -/

/-- The ports of a node with one put in its place. -/
def putPort (nodes : Index Node) (node : String) (p : Port) : Index Node :=
  match nodes.get? node with
  | some n => nodes.put node { n with ports := n.ports.put p.name p }
  | none => nodes

/-- The ports of a node are put back among the nodes of its kind. -/
def putPorts (nodes : Index Node) (n : Node) : Index Node :=
  n.ports.values.foldl (fun nodes p => nodes.putPort n.name p) nodes

/-- Ports that are put back one after the other change the ports of their node, and nothing else. -/
theorem entries_foldl_putPort {nodes : Index Node} {done rest : List (String × Node)} {name : String} {n : Node}
    (split : nodes.entries = done ++ (name, n) :: rest) (ps : List Port) :
    (ps.foldl (fun nodes p => nodes.putPort name p) nodes).entries =
      done ++ (name, { n with ports := ps.foldl (fun ports p => ports.put p.name p) n.ports }) :: rest := by
  induction ps generalizing nodes n with
  | nil => exact split
  | cons p ps ih =>
    have found : nodes.get? name = some n := get?_eq_some_iff.mpr (by rw [split]; simp)
    have step : nodes.putPort name p = nodes.put name { n with ports := n.ports.put p.name p } := by
      rw [putPort, found]
    rw [List.foldl_cons, List.foldl_cons, step]
    exact ih (entries_put split _)

end Index

/-- A node that differs from another one in nothing but its ports. These stand under the same names in the same order,
    and each under its own name. -/
structure Node.Fills (old new : Node) : Prop where
  frame : new = { old with ports := new.ports }
  ports : List.Forall₂ (fun e r => r.1 = e.1 ∧ r.2.name = e.1) old.ports.entries new.ports.entries

theorem Node.Fills.foldl_put {old new : Node} (fills : old.Fills new) :
    { old with ports := new.ports.values.foldl (fun ports p => ports.put p.name p) old.ports } = new := by
  have replaces : Index.Replaces (fun (ports : Index Port) e => ports.put e.2.name e.2)
      fun name _ new => new.name = name := by
    rintro ports done rest name p q split rfl
    exact Index.entries_put split q
  have all := replaces.foldl_eq fills.ports
  rw [Index.values, List.foldl_map, all]
  exact fills.frame.symm

theorem replaces_putPorts :
    Index.Replaces (fun nodes e => nodes.putPorts e.2) fun name old new => new.name = name ∧ old.Fills new := by
  rintro nodes done rest name old new split ⟨rfl, fills⟩
  have put := Index.entries_foldl_putPort split new.ports.values
  rwa [fills.foldl_put] at put

/-- A port with its role, and the node that it is for. -/
structure FoundPort where
  kind : NodeKind
  node : String
  port : Port

def Node.foundPorts (n : Node) : List FoundPort := n.ports.values.map fun p => ⟨n.kind, n.name, p⟩

namespace Topology

/-- The topology with a function applied to the nodes of one kind. -/
def change (kind : NodeKind) (f : Index Node → Index Node) (t : Topology) : Topology :=
  match kind with
  | .switch => { t with switches := f t.switches }
  | .testHost => { t with testHosts := f t.testHosts }
  | .dutHost => { t with dutHosts := f t.dutHosts }

/-- A port is put back among the nodes of the kind, at the node and the name that it has. -/
def putPort (t : Topology) (found : FoundPort) : Topology :=
  t.change found.kind fun nodes => nodes.putPort found.node found.port

theorem change_id (kind : NodeKind) (t : Topology) : t.change kind (fun nodes => nodes) = t := by
  cases kind <;> rfl

theorem change_change (kind : NodeKind) (f g : Index Node → Index Node) (t : Topology) :
    (t.change kind f).change kind g = t.change kind fun nodes => g (f nodes) := by
  cases kind <;> rfl

theorem foldl_change {β : Type} (kind : NodeKind) (step : Index Node → β → Index Node) (bs : List β) (t : Topology) :
    bs.foldl (fun t b => t.change kind fun nodes => step nodes b) t =
      t.change kind fun nodes => bs.foldl step nodes := by
  induction bs generalizing t with
  | nil => exact (change_id kind t).symm
  | cons b bs ih => rw [List.foldl_cons, ih, change_change]; rfl

/-- The ports of nodes of one kind are put back among the nodes of this kind. -/
theorem foldl_putPort_foundPorts {kind : NodeKind} {ns : List Node} (ofKind : ∀ n ∈ ns, n.kind = kind) (t : Topology) :
    (ns.flatMap Node.foundPorts).foldl putPort t = t.change kind fun nodes => ns.foldl Index.putPorts nodes := by
  induction ns generalizing t with
  | nil => exact (change_id kind t).symm
  | cons n ns ih =>
    obtain ⟨rfl, others⟩ := List.forall_mem_cons.mp ofKind
    have here : n.foundPorts.foldl putPort t = t.change n.kind fun nodes => nodes.putPorts n := by
      rw [Node.foundPorts, List.foldl_map]
      exact foldl_change n.kind (fun nodes p => nodes.putPort n.name p) n.ports.values t
    rw [List.flatMap_cons, List.foldl_append, here, ih others, change_change]
    rfl

end Topology

/-! ### Finding the roles of all ports -/

/-- A computation for each value of a list of named values gives what it gives name by name. -/
theorem mapM_entries {ε α β γ : Type} {f : String → α → Except ε β} {g : String × α → Except ε γ} {h : β → γ}
    (each : ∀ e, g e = (f e.1 e.2).map h) (entries : List (String × α)) :
    entries.mapM g = (traverseEntries f entries).map fun results => results.map fun r => h r.2 := by
  induction entries with
  | nil => rfl
  | cons e rest ih =>
    obtain ⟨name, a⟩ := e
    rw [List.mapM_cons, traverseEntries, each, ih]
    cases f name a with
    | error fault => rfl
    | ok b => cases traverseEntries f rest <;> rfl

theorem Index.mapM_values {ε α β γ δ : Type} {f : String → α → Except ε β} {k : String → α → δ} {g : δ → Except ε γ}
    {h : β → γ} (each : ∀ name a, g (k name a) = (f name a).map h) (index : Index α) :
    (index.mapNamed k).values.mapM g = (index.traverse f).map fun result => result.values.map h := by
  have whole : (index.traverse f).map (fun result => result.values.map h) =
      ((index.traverse f).map Index.entries).map fun results => results.map fun r => h r.2 := by
    cases index.traverse f with
    | error fault => rfl
    | ok result => simp [Except.map, Index.values]
  rw [whole, Index.entries_traverse, Index.values_mapNamed, List.mapM_map]
  exact mapM_entries (fun e => each e.1 e.2) index.entries

namespace TopologySections
variable {s : TopologySections}

/-- A node whose ports have no roles yet, but something in their place. -/
def unresolvedNode (placeholder : PortRole) (kind : NodeKind) (datapathId : UInt64) (ports : Index Json)
    (name : String) : Node :=
  ⟨name, kind, datapathId, ports.mapNamed fun port data => ⟨port, data, placeholder⟩⟩

/-- All nodes before their ports have roles. -/
def unresolved (s : TopologySections) (placeholder : PortRole) : Topology where
  switches := s.switches.mapNamed fun name entry => unresolvedNode placeholder .switch entry.datapathId entry.ports name
  testHosts := s.testHosts.mapNamed fun name entry => unresolvedNode placeholder .testHost 0 entry.ports name
  dutHosts := s.dutHosts.mapNamed fun name entry => unresolvedNode placeholder .dutHost 0 entry.ports name
  links := s.links

/-- The ports of a node with their roles, or the first fault. -/
def findPorts (s : TopologySections) (n : Node) : Except TopologyFault (List FoundPort) :=
  n.ports.values.mapM fun p =>
    ((s.resolvePort n.kind ⟨n.name, p.name⟩ p.data).mapError (.port ⟨n.name, p.name⟩)).map fun found =>
      ⟨n.kind, n.name, found⟩

/-- The ports of nodes with their roles, node after node, or the first fault. -/
def resolvePorts (s : TopologySections) (nodes : List Node) : Except TopologyFault (List FoundPort) :=
  (nodes.mapM s.findPorts).map List.flatten

theorem resolvePorts_append (before later : List Node) : s.resolvePorts (before ++ later) =
    s.resolvePorts before >>= fun found => (s.resolvePorts later).map (found ++ ·) := by
  unfold resolvePorts
  rw [List.mapM_append]
  cases before.mapM s.findPorts with
  | error fault => rfl
  | ok found => cases later.mapM s.findPorts <;> simp [Except.map]

/-- The ports of a node are found as the node is resolved. -/
theorem findPorts_unresolvedNode (placeholder : PortRole) (kind : NodeKind) (datapathId : UInt64) (ports : Index Json)
    (name : String) : s.findPorts (unresolvedNode placeholder kind datapathId ports name) =
      (s.resolveNode kind datapathId ports name).map Node.foundPorts := by
  have found : s.findPorts (unresolvedNode placeholder kind datapathId ports name) =
      (ports.traverse fun port data => (s.resolvePort kind ⟨name, port⟩ data).mapError (.port ⟨name, port⟩)).map
        fun result => result.values.map (FoundPort.mk kind name) := by
    refine Index.mapM_values (fun port data => ?_) ports
    rfl
  rw [found, resolveNode]
  cases ports.traverse _ <;> rfl

/-- The ports of all nodes of one kind are found as the nodes are resolved. -/
theorem resolvePorts_section {α : Type} (placeholder : PortRole) (kind : NodeKind) (datapathId : α → UInt64)
    (ports : α → Index Json) (index : Index α) :
    s.resolvePorts
        (index.mapNamed fun name entry =>
          unresolvedNode placeholder kind (datapathId entry) (ports entry) name).values =
      (index.traverse fun name entry => s.resolveNode kind (datapathId entry) (ports entry) name).map
        fun nodes => nodes.values.flatMap Node.foundPorts := by
  rw [resolvePorts, Index.mapM_values fun name entry => findPorts_unresolvedNode placeholder kind _ _ name]
  cases index.traverse _ <;> rfl

/-- The first pass finds the ports of the resolved nodes, or the first fault. -/
theorem resolvePorts_unresolved (s : TopologySections) (placeholder : PortRole) :
    s.resolvePorts (s.unresolved placeholder).nodes = s.resolve.map fun t => t.nodes.flatMap Node.foundPorts := by
  have switches := s.resolvePorts_section placeholder .switch SwitchEntry.datapathId SwitchEntry.ports s.switches
  have testHosts := s.resolvePorts_section placeholder .testHost (fun _ => 0) HostEntry.ports s.testHosts
  have dutHosts := s.resolvePorts_section placeholder .dutHost (fun _ => 0) HostEntry.ports s.dutHosts
  unfold Topology.nodes unresolved resolve
  rw [resolvePorts_append, resolvePorts_append, switches, testHosts, dutHosts]
  cases s.switches.traverse _ with
  | error fault => rfl
  | ok ofSwitches =>
    cases s.testHosts.traverse _ with
    | error fault => rfl
    | ok ofTestHosts =>
      cases s.dutHosts.traverse _ with
      | error fault => rfl
      | ok ofDutHosts => simp [Except.map]

/-! ### Both passes -/

/-- A resolved node fills the node as it stood before. -/
theorem fills_of_resolveNode (placeholder : PortRole) {kind : NodeKind} {datapathId : UInt64} {ports : Index Json}
    {name : String} {n : Node} (resolved : s.resolveNode kind datapathId ports name = .ok n) :
    n.kind = kind ∧ n.name = name ∧ (unresolvedNode placeholder kind datapathId ports name).Fills n := by
  obtain ⟨found, each, rfl⟩ := resolveNode_ok_iff.mp resolved
  refine ⟨rfl, rfl, rfl, ?_⟩
  refine List.forall₂_map_left_iff.mpr ((Index.traverse_ok_iff.mp each).imp fun e r here => ?_)
  obtain ⟨far, role, _, _, made⟩ := resolvePort_ok_iff.mp (mapError_eq_ok_iff.mp here.2)
  exact ⟨here.1, by rw [made]⟩

/-- The nodes of a section, resolved, come of the nodes before by putting their ports back. -/
theorem foldl_putPorts_section {α : Type} (placeholder : PortRole) {kind : NodeKind} {datapathId : α → UInt64}
    {ports : α → Index Json} {index : Index α} {nodes : Index Node}
    (made : (index.traverse fun name entry => s.resolveNode kind (datapathId entry) (ports entry) name) = .ok nodes) :
    (∀ n ∈ nodes.values, n.kind = kind) ∧
      nodes.values.foldl Index.putPorts
        (index.mapNamed fun name entry => unresolvedNode placeholder kind (datapathId entry) (ports entry) name) =
        nodes := by
  have each := Index.traverse_ok_iff.mp made
  constructor
  · intro n member
    obtain ⟨⟨name, n⟩, inside, rfl⟩ := List.mem_map.mp member
    obtain ⟨e, _, _, resolved⟩ := exists_left_of_forall₂ each inside
    exact (fills_of_resolveNode placeholder resolved).1
  · rw [Index.values, List.foldl_map]
    refine replaces_putPorts.foldl_eq (List.forall₂_map_left_iff.mpr (each.imp fun e r here => ?_))
    exact ⟨here.1, (fills_of_resolveNode placeholder here.2).2⟩

/-- The second pass gives the resolved nodes, whatever stood in the place of the roles. -/
theorem Resolves.foldl_putPort {t : Topology} (resolves : s.Resolves t) (placeholder : PortRole) :
    (t.nodes.flatMap Node.foundPorts).foldl Topology.putPort (s.unresolved placeholder) = t := by
  obtain ⟨areSwitches, switches⟩ := foldl_putPorts_section placeholder resolves.switches
  obtain ⟨areTestHosts, testHosts⟩ := foldl_putPorts_section placeholder resolves.testHosts
  obtain ⟨areDutHosts, dutHosts⟩ := foldl_putPorts_section placeholder resolves.dutHosts
  rw [Topology.nodes, List.flatMap_append, List.flatMap_append, List.foldl_append, List.foldl_append,
    Topology.foldl_putPort_foundPorts areSwitches, Topology.foldl_putPort_foundPorts areTestHosts,
    Topology.foldl_putPort_foundPorts areDutHosts]
  simp only [Topology.change, unresolved, switches, testHosts, dutHosts, ← resolves.links]

/-- Resolving the nodes one by one is finding the roles of all ports first, and then putting the ports back by the
    kind and the name of their node. Both report the same fault. -/
theorem resolve_eq_putPorts (s : TopologySections) (placeholder : PortRole) :
    s.resolve = (s.resolvePorts (s.unresolved placeholder).nodes).map fun found =>
      found.foldl Topology.putPort (s.unresolved placeholder) := by
  rw [resolvePorts_unresolved]
  cases resolved : s.resolve with
  | error fault => rfl
  | ok t => exact congrArg Except.ok ((resolve_ok_iff.mp resolved).foldl_putPort placeholder).symm

end TopologySections
end PatchPanel
