import PatchPanel.Topology.Resolve
import PatchPanel.Proofs.Index

/-!
What holds of every topology that is read from a file: a node stands under its own name among the nodes
of its kind, no two nodes have one name, and a host has neither a datapath id nor port numbers
(`Topology.Sound`). So the name of a switch leads to this switch, among all nodes as among the switches.
The role of a port is made of its data (`PortRole.Resolved`), and it fits the port's own node and the node at
the other end of its link (`Topology.exists_fits`).
-/
namespace PatchPanel

theorem firstRepeated?_eq_none_iff {earlier names : List String} :
    firstRepeated? earlier names = none ↔ names.Nodup ∧ ∀ name ∈ names, name ∉ earlier := by
  induction names generalizing earlier with
  | nil => simp [firstRepeated?]
  | cons name names ih =>
    rw [firstRepeated?, List.nodup_cons]
    by_cases repeated : name ∈ earlier
    · simp [repeated]
    · rw [if_neg (by simpa using repeated), ih]
      constructor
      · rintro ⟨distinct, others⟩
        refine ⟨⟨fun again => others name again List.mem_cons_self, distinct⟩, List.forall_mem_cons.mpr ⟨repeated, ?_⟩⟩
        exact fun other member before => others other member (List.mem_cons_of_mem _ before)
      · rintro ⟨⟨once, distinct⟩, others⟩
        refine ⟨distinct, fun other member before => ?_⟩
        rcases List.mem_cons.mp before with same | before
        · exact once (same ▸ member)
        · exact others other (List.mem_cons_of_mem _ member) before

/-- A node of a kind as a topology has it under a name. A host has the datapath id zero, and its ports have
    the number zero. -/
structure Node.StandsAs (kind : NodeKind) (name : String) (n : Node) : Prop where
  called : n.name = name
  ofKind : n.kind = kind
  host : kind ≠ .switch → n.datapathId = 0 ∧ ∀ port p, n.ports.get? port = some p → p.number = 0

/-! ### Roles -/

theorem readPortData_ok_iff {α : Type} {codec : Json.Codec α} {data : Json} {a : α} :
    readPortData codec data = .ok a ↔ codec.ofTree data = .ok a := mapError_eq_ok_iff

/-- Addresses are accepted where all of them have their proper forms, and are kept. -/
theorem TestHostPortEntry.check_ok_iff {d : TestHostPortEntry} {p : TestHostPort} :
    d.check = .ok p ↔ (Address.isMac d.mac = true ∧ Address.isIp d.ip = true ∧
      ∀ g, d.gateway = some g → Address.isIp g = true) ∧ p = ⟨d.mac, d.ip, d.gateway⟩ := by
  obtain ⟨mac, ip, gateway⟩ := d
  unfold check
  by_cases isMac : Address.isMac mac = true
  · by_cases isIp : Address.isIp ip = true
    · cases gateway with
      | none =>
        simp only [isMac, isIp, Bool.not_true, Bool.false_eq_true, ↓reduceIte, Except.ok.injEq, reduceCtorEq,
          false_implies, implies_true, and_self, true_and]
        exact eq_comm
      | some g =>
        by_cases isGateway : Address.isIp g = true
        · simp only [isMac, isIp, isGateway, Bool.not_true, Bool.false_eq_true, ↓reduceIte, Except.ok.injEq,
            Option.some.injEq, forall_eq', and_self, true_and]
          exact eq_comm
        · simp [isMac, isIp, isGateway]
    · simp [isMac, isIp]
  · simp [isMac]

/-- The role of a port with the given data, on a node of the kind `kind`, whose link leads to a node of the
    kind `far`. -/
inductive PortRole.Resolved : (kind far : NodeKind) → (data : Json) → PortRole → Prop where
  | switch {far data d} (read : SwitchPortEntry.codec.ofTree data = .ok d) :
    Resolved .switch far data (.switch far d.number)
  | testHost {data d} (read : TestHostPortEntry.codec.ofTree data = .ok d) (mac : Address.isMac d.mac = true)
    (ip : Address.isIp d.ip = true) (gateway : ∀ g, d.gateway = some g → Address.isIp g = true) :
    Resolved .testHost .switch data (.testHost ⟨d.mac, d.ip, d.gateway⟩)
  | dutHost {data d} (read : DutHostPortEntry.codec.ofTree data = .ok d) :
    Resolved .dutHost .switch data (.dutHost ⟨d.vlanId.getD 0, d.vlanTagged.getD false⟩)

theorem resolveRole_ok_iff {kind far : NodeKind} {data : Json} {role : PortRole} :
    resolveRole kind far data = .ok role ↔ role.Resolved kind far data := by
  constructor
  · intro made
    cases kind with
    | switch =>
      obtain ⟨d, read, rfl⟩ := map_eq_ok_iff.mp made
      exact .switch (readPortData_ok_iff.mp read)
    | testHost =>
      cases far with
      | switch =>
        obtain ⟨p, checked, rfl⟩ := map_eq_ok_iff.mp made
        obtain ⟨d, read, check⟩ := bind_eq_ok_iff.mp checked
        obtain ⟨⟨mac, ip, gateway⟩, rfl⟩ := TestHostPortEntry.check_ok_iff.mp check
        exact .testHost (readPortData_ok_iff.mp read) mac ip gateway
      | testHost | dutHost => cases made
    | dutHost =>
      cases far with
      | switch =>
        obtain ⟨d, read, rfl⟩ := map_eq_ok_iff.mp made
        exact .dutHost (readPortData_ok_iff.mp read)
      | testHost | dutHost => cases made
  · rintro (read | ⟨read, mac, ip, gateway⟩ | read)
    · exact map_eq_ok_iff.mpr ⟨_, readPortData_ok_iff.mpr read, rfl⟩
    · exact map_eq_ok_iff.mpr ⟨_, bind_eq_ok_iff.mpr ⟨_, readPortData_ok_iff.mpr read,
        TestHostPortEntry.check_ok_iff.mpr ⟨⟨mac, ip, gateway⟩, rfl⟩⟩, rfl⟩
    · exact map_eq_ok_iff.mpr ⟨_, readPortData_ok_iff.mpr read, rfl⟩

/-- A role for ports on nodes of one kind whose links lead to nodes of another kind. -/
def PortRole.Fits (kind far : NodeKind) : PortRole → Prop
  | .switch facing _ => kind = .switch ∧ far = facing
  | .testHost _ => kind = .testHost ∧ far = .switch
  | .dutHost _ => kind = .dutHost ∧ far = .switch

theorem PortRole.Resolved.fits {kind far : NodeKind} {data : Json} {role : PortRole}
    (resolved : role.Resolved kind far data) : role.Fits kind far := by
  cases resolved with
  | switch => exact ⟨rfl, rfl⟩
  | testHost => exact ⟨rfl, rfl⟩
  | dutHost => exact ⟨rfl, rfl⟩

/-! ### Ports and nodes -/

namespace TopologySections

theorem farKind_ok_iff {s : TopologySections} {e : Endpoint} {kind : NodeKind} :
    s.farKind e = .ok kind ↔ ∃ far, s.links.farEnd? e = some far ∧ s.kind? far.node = some kind := by
  unfold farKind
  cases linked : s.links.farEnd? e with
  | none => simp
  | some far => cases known : s.kind? far.node <;> simp [known]

theorem resolvePort_ok_iff {s : TopologySections} {kind : NodeKind} {e : Endpoint} {data : Json} {p : Port} :
    s.resolvePort kind e data = .ok p ↔
      ∃ far role, s.farKind e = .ok far ∧ role.Resolved kind far data ∧ p = ⟨e.port, data, role⟩ := by
  simp only [resolvePort, bind_eq_ok_iff, resolveRole_ok_iff, pure_eq_ok, Except.ok.injEq]
  constructor
  · rintro ⟨far, leads, role, resolved, rfl⟩
    exact ⟨far, role, leads, resolved, rfl⟩
  · rintro ⟨far, role, leads, resolved, rfl⟩
    exact ⟨far, leads, role, resolved, rfl⟩

theorem number_of_resolvePort {s : TopologySections} {kind : NodeKind} {e : Endpoint} {data : Json} {p : Port}
    (resolved : s.resolvePort kind e data = .ok p) (host : kind ≠ .switch) : p.number = 0 := by
  obtain ⟨far, role, _, ofRole, rfl⟩ := resolvePort_ok_iff.mp resolved
  cases ofRole with
  | switch => exact absurd rfl host
  | testHost => rfl
  | dutHost => rfl

theorem resolveNode_ok_iff {s : TopologySections} {kind : NodeKind} {datapathId : UInt64} {ports : Index Json}
    {name : String} {n : Node} :
    s.resolveNode kind datapathId ports name = .ok n ↔
      ∃ resolved, (ports.traverse fun port data =>
        (s.resolvePort kind ⟨name, port⟩ data).mapError (TopologyFault.port ⟨name, port⟩)) = .ok resolved ∧
        ⟨name, kind, datapathId, resolved⟩ = n := by
  simp only [resolveNode, bind_eq_ok_iff, pure_eq_ok, Except.ok.injEq]

theorem standsAs_of_resolveNode {s : TopologySections} {kind : NodeKind} {datapathId : UInt64} {ports : Index Json}
    {name : String} {n : Node} (resolved : s.resolveNode kind datapathId ports name = .ok n)
    (host : kind ≠ .switch → datapathId = 0) : n.StandsAs kind name := by
  obtain ⟨resolvedPorts, each, rfl⟩ := resolveNode_ok_iff.mp resolved
  refine ⟨rfl, rfl, fun isHost => ⟨host isHost, fun port p found => ?_⟩⟩
  obtain ⟨data, _, made⟩ := Index.get?_of_traverse each found
  exact number_of_resolvePort (mapError_eq_ok_iff.mp made) isHost

/-- The role of a port fits its node and the node that its link leads to. -/
theorem fits_of_resolveNode {s : TopologySections} {kind : NodeKind} {datapathId : UInt64} {ports : Index Json}
    {name port : String} {n : Node} {p : Port} (resolved : s.resolveNode kind datapathId ports name = .ok n)
    (found : n.ports.get? port = some p) :
    ∃ far farKind, s.links.farEnd? ⟨name, port⟩ = some far ∧ s.kind? far.node = some farKind ∧
      p.role.Fits kind farKind := by
  obtain ⟨resolvedPorts, each, rfl⟩ := resolveNode_ok_iff.mp resolved
  obtain ⟨data, _, made⟩ := Index.get?_of_traverse each found
  obtain ⟨farKind, role, leads, ofRole, rfl⟩ := resolvePort_ok_iff.mp (mapError_eq_ok_iff.mp made)
  obtain ⟨far, linked, known⟩ := farKind_ok_iff.mp leads
  exact ⟨far, farKind, linked, known, ofRole.fits⟩

/-- The nodes of a topology are those of its sections, resolved. -/
structure Resolves (s : TopologySections) (t : Topology) : Prop where
  switches : (s.switches.traverse fun name entry => s.resolveNode .switch entry.datapathId entry.ports name) =
    .ok t.switches
  testHosts : (s.testHosts.traverse fun name entry => s.resolveNode .testHost 0 entry.ports name) = .ok t.testHosts
  dutHosts : (s.dutHosts.traverse fun name entry => s.resolveNode .dutHost 0 entry.ports name) = .ok t.dutHosts
  links : t.links = s.links

theorem resolve_ok_iff {s : TopologySections} {t : Topology} : s.resolve = .ok t ↔ s.Resolves t := by
  simp only [resolve, bind_eq_ok_iff, pure_eq_ok, Except.ok.injEq]
  constructor
  · rintro ⟨switches, ofSwitches, testHosts, ofTestHosts, dutHosts, ofDutHosts, rfl⟩
    exact ⟨ofSwitches, ofTestHosts, ofDutHosts, rfl⟩
  · rintro ⟨ofSwitches, ofTestHosts, ofDutHosts, links⟩
    exact ⟨t.switches, ofSwitches, t.testHosts, ofTestHosts, t.dutHosts, ofDutHosts, by rw [← links]⟩

/-- Sections are those of a file that has them all. -/
theorem ofFile_ok_iff {file : TopologyFile} {s : TopologySections} :
    ofFile file = .ok s ↔ ∃ links, s.links = .ofLinks links ∧
      file = ⟨some s.switches, some s.testHosts, some s.dutHosts, some links⟩ := by
  obtain ⟨switches, testHosts, dutHosts, links⟩ := file
  constructor
  · intro read
    cases links <;> cases switches <;> cases testHosts <;> cases dutHosts <;> cases read
    exact ⟨_, rfl, rfl⟩
  · rintro ⟨found, links, same⟩
    cases same
    rw [← show (⟨s.switches, s.testHosts, s.dutHosts, .ofLinks found⟩ : TopologySections) = s by rw [← links]]
    rfl

end TopologySections

namespace Topology

/-- A topology is that of a file if all sections are there, no name is given twice, and every node can be
    resolved. -/
theorem ofFile_ok_iff {file : TopologyFile} {t : Topology} :
    ofFile file = .ok t ↔ ∃ s, TopologySections.ofFile file = .ok s ∧ s.names.Nodup ∧ s.Resolves t := by
  rw [ofFile, bind_eq_ok_iff]
  refine exists_congr fun s => and_congr_right fun _ => ?_
  have distinct : firstRepeated? [] s.names = none ↔ s.names.Nodup := by simp [firstRepeated?_eq_none_iff]
  rw [← distinct, ← TopologySections.resolve_ok_iff]
  cases firstRepeated? [] s.names <;> simp

/-- What holds of every topology that is read from a file. -/
structure Sound (t : Topology) : Prop where
  switches : ∀ name n, t.switches.get? name = some n → n.StandsAs .switch name
  testHosts : ∀ name n, t.testHosts.get? name = some n → n.StandsAs .testHost name
  dutHosts : ∀ name n, t.dutHosts.get? name = some n → n.StandsAs .dutHost name
  distinct : (t.switches.names ++ t.testHosts.names ++ t.dutHosts.names).Nodup

theorem sound_of_ofFile {file : TopologyFile} {t : Topology} (read : ofFile file = .ok t) : t.Sound := by
  obtain ⟨s, _, distinct, resolves⟩ := ofFile_ok_iff.mp read
  refine ⟨?_, ?_, ?_, ?_⟩
  case refine_1 =>
    intro name n found
    obtain ⟨entry, _, made⟩ := Index.get?_of_traverse resolves.switches found
    exact TopologySections.standsAs_of_resolveNode made fun isHost => absurd rfl isHost
  case refine_2 =>
    intro name n found
    obtain ⟨entry, _, made⟩ := Index.get?_of_traverse resolves.testHosts found
    exact TopologySections.standsAs_of_resolveNode made fun _ => rfl
  case refine_3 =>
    intro name n found
    obtain ⟨entry, _, made⟩ := Index.get?_of_traverse resolves.dutHosts found
    exact TopologySections.standsAs_of_resolveNode made fun _ => rfl
  case refine_4 =>
    rw [Index.names_of_traverse resolves.switches, Index.names_of_traverse resolves.testHosts,
      Index.names_of_traverse resolves.dutHosts]
    exact distinct

/-- A name stands in one section only. -/
theorem Sound.one_section {t : Topology} (sound : t.Sound) (name : String) :
    (name ∈ t.testHosts.names → t.switches.get? name = none) ∧
      (name ∈ t.dutHosts.names → t.switches.get? name = none ∧ t.testHosts.get? name = none) := by
  obtain ⟨before, _, dutHostsApart⟩ := List.nodup_append.mp sound.distinct
  obtain ⟨_, _, testHostsApart⟩ := List.nodup_append.mp before
  refine ⟨fun member => ?_, fun member => ⟨?_, ?_⟩⟩
  · exact Index.get?_eq_none fun switch => testHostsApart name switch name member rfl
  · exact Index.get?_eq_none fun switch => dutHostsApart name (List.mem_append_left _ switch) name member rfl
  · exact Index.get?_eq_none fun host => dutHostsApart name (List.mem_append_right _ host) name member rfl

/-- A name leads to the node that stands under it among the nodes of some kind. -/
theorem Sound.node?_eq_some_iff {t : Topology} (sound : t.Sound) {name : String} {n : Node} :
    t.node? name = some n ↔
      t.switches.get? name = some n ∨ t.testHosts.get? name = some n ∨ t.dutHosts.get? name = some n := by
  obtain ⟨ofTestHost, ofDutHost⟩ := sound.one_section name
  unfold node?
  cases testHost : t.testHosts.get? name with
  | some host =>
    have noSwitch := ofTestHost (Index.mem_names.mpr ⟨host, testHost⟩)
    have noDutHost : t.dutHosts.get? name = none := by
      refine Index.get?_eq_none fun member => ?_
      rw [(ofDutHost member).2] at testHost
      cases testHost
    simp [noSwitch, noDutHost]
  | none =>
    cases dutHost : t.dutHosts.get? name with
    | some host =>
      have noSwitch := (ofDutHost (Index.mem_names.mpr ⟨host, dutHost⟩)).1
      simp [noSwitch]
    | none => simp

/-- Every node has its name and its kind. -/
theorem Sound.standsAs {t : Topology} (sound : t.Sound) {name : String} {n : Node} (found : t.node? name = some n) :
    n.StandsAs n.kind name := by
  rcases sound.node?_eq_some_iff.mp found with switch | testHost | dutHost
  · have stands := sound.switches name n switch
    rwa [← stands.ofKind] at stands
  · have stands := sound.testHosts name n testHost
    rwa [← stands.ofKind] at stands
  · have stands := sound.dutHosts name n dutHost
    rwa [← stands.ofKind] at stands

/-- The switches are the nodes that are switches by their kind. -/
theorem Sound.switch_iff {t : Topology} (sound : t.Sound) {name : String} {n : Node} :
    t.switches.get? name = some n ↔ t.node? name = some n ∧ n.kind = .switch := by
  constructor
  · intro found
    exact ⟨sound.node?_eq_some_iff.mpr (.inl found), (sound.switches name n found).ofKind⟩
  · rintro ⟨found, kind⟩
    rcases sound.node?_eq_some_iff.mp found with switch | testHost | dutHost
    · exact switch
    · cases kind.symm.trans (sound.testHosts name n testHost).ofKind
    · cases kind.symm.trans (sound.dutHosts name n dutHost).ofKind

/-! ### Ports and the nodes that they face -/

/-- A name of a kind leads to a node of the kind. -/
theorem Sound.exists_of_kind? {t : Topology} (sound : t.Sound) {s : TopologySections} (resolves : s.Resolves t)
    {name : String} {kind : NodeKind} (known : s.kind? name = some kind) :
    ∃ n, t.node? name = some n ∧ n.kind = kind := by
  unfold TopologySections.kind? at known
  split at known
  · next testHost =>
    cases known
    obtain ⟨n, found⟩ := Index.exists_get?_of_traverse resolves.testHosts testHost
    exact ⟨n, sound.node?_eq_some_iff.mpr (.inr (.inl found)), (sound.testHosts name n found).ofKind⟩
  · split at known
    · next dutHost =>
      cases known
      obtain ⟨n, found⟩ := Index.exists_get?_of_traverse resolves.dutHosts dutHost
      exact ⟨n, sound.node?_eq_some_iff.mpr (.inr (.inr found)), (sound.dutHosts name n found).ofKind⟩
    · split at known
      · next switch =>
        cases known
        obtain ⟨n, found⟩ := Index.exists_get?_of_traverse resolves.switches switch
        exact ⟨n, sound.node?_eq_some_iff.mpr (.inl found), (sound.switches name n found).ofKind⟩
      · cases known

/-- The link of a port leads to a node, and the role of the port fits both nodes. -/
theorem exists_fits {file : TopologyFile} {t : Topology} (read : ofFile file = .ok t) {e : Endpoint} {n : Node}
    {p : Port} (found : t.node? e.node = some n) (port : n.ports.get? e.port = some p) :
    ∃ far m, t.links.farEnd? e = some far ∧ t.node? far.node = some m ∧ p.role.Fits n.kind m.kind := by
  have sound := sound_of_ofFile read
  obtain ⟨s, _, _, resolves⟩ := ofFile_ok_iff.mp read
  obtain ⟨far, kind, linked, known, fits⟩ : ∃ far kind, s.links.farEnd? e = some far ∧
      s.kind? far.node = some kind ∧ p.role.Fits n.kind kind := by
    rcases sound.node?_eq_some_iff.mp found with switch | testHost | dutHost
    · obtain ⟨_, _, made⟩ := Index.get?_of_traverse resolves.switches switch
      rw [(sound.switches e.node n switch).ofKind]
      exact TopologySections.fits_of_resolveNode made port
    · obtain ⟨_, _, made⟩ := Index.get?_of_traverse resolves.testHosts testHost
      rw [(sound.testHosts e.node n testHost).ofKind]
      exact TopologySections.fits_of_resolveNode made port
    · obtain ⟨_, _, made⟩ := Index.get?_of_traverse resolves.dutHosts dutHost
      rw [(sound.dutHosts e.node n dutHost).ofKind]
      exact TopologySections.fits_of_resolveNode made port
  obtain ⟨m, there, ofKind⟩ := sound.exists_of_kind? resolves known
  exact ⟨far, m, by rw [resolves.links, linked], there, by rw [ofKind]; exact fits⟩

end Topology
end PatchPanel
