import PatchPanel.Proofs.Roles

/-!
Which topology files are accepted. All that is wrong with a file is known beforehand, in the order in which it is
looked for (`TopologyFile.faults`): missing sections, names that are given twice, and the faults of each port, which
begin with its link and end with its addresses. What is reported is the first of it, and a file with nothing wrong is
accepted (`Topology.accepted_or_first_fault`).
-/
namespace PatchPanel

/-! ### Names that are given twice -/

/-- The names of a list that stand earlier in it already. -/
def repeatedNames (names : List String) : List String :=
  (names.zipIdx.filter fun e => e.1 ∈ names.take e.2).map Prod.fst

theorem firstRepeated?_eq_head? (before names : List String) :
    firstRepeated? before.reverse names =
      (((names.zipIdx before.length).filter fun e => e.1 ∈ (before ++ names).take e.2).map Prod.fst).head? := by
  induction names generalizing before with
  | nil => rfl
  | cons name names ih =>
    have earlier : (before ++ name :: names).take before.length = before := List.take_left
    rw [firstRepeated?, List.zipIdx_cons, List.filter_cons, earlier]
    by_cases repeated : name ∈ before
    · simp [repeated]
    · have later := ih (before ++ [name])
      rw [List.reverse_concat, List.length_append, List.length_singleton, List.append_assoc,
        List.singleton_append] at later
      simpa [repeated] using later

theorem firstRepeated?_eq (names : List String) : firstRepeated? [] names = (repeatedNames names).head? :=
  firstRepeated?_eq_head? [] names

theorem repeatedNames_eq_nil_iff {names : List String} : repeatedNames names = [] ↔ names.Nodup := by
  rw [← List.head?_eq_none_iff, ← firstRepeated?_eq, firstRepeated?_eq_none_iff]
  simp

/-! ### Faults of a port -/

namespace TopologyFile

/-- The kind of the declared node of a name. -/
def kindOf? (file : TopologyFile) (name : String) : Option NodeKind :=
  (file.declared.find? fun d => d.name = name).map NodeEntry.kind

/-- The far end of the first link of an endpoint. -/
def farEnd? (file : TopologyFile) (e : Endpoint) : Option Endpoint :=
  (firstLink? (file.links.getD []) e).bind fun l => l.farEnd? e

/-- What is wrong with the link of a port on a node of a kind: there is none, it leads to a node that is not declared,
    or it leads from a host to another host. -/
def linkFaults (file : TopologyFile) (kind : NodeKind) (e : Endpoint) : List PortFault :=
  match file.farEnd? e with
  | none => [.noLink]
  | some far =>
    match file.kindOf? far.node with
    | none => [.unknownFarNode far.node]
    | some farKind => faultUnless (kind = .switch ∨ farKind = .switch) (.notOnSwitch kind farKind)

end TopologyFile

/-- What is wrong with the addresses of a test host port: the MAC address, the IP address, the gateway. -/
def TestHostPortEntry.faults (d : TestHostPortEntry) : List PortFault :=
  faultUnless (Address.isMac d.mac = true) (.badMac d.mac) ++
    (d.ip :: d.gateway.toList).flatMap fun ip => faultUnless (Address.isIp ip = true) (.badIp ip)

/-- What is wrong with data: it has not the form of a codec, or has faults of another sort. -/
def readFaults {α : Type} (codec : Json.Codec α) (data : Json) (faults : α → List PortFault) : List PortFault :=
  match codec.ofTree data with
  | .error fault => [.badData fault]
  | .ok a => faults a

/-- What is wrong with the data of a port on a node of a kind. -/
def dataFaults (kind : NodeKind) (data : Json) : List PortFault :=
  match kind with
  | .switch => readFaults SwitchPortEntry.codec data fun _ => []
  | .testHost => readFaults TestHostPortEntry.codec data TestHostPortEntry.faults
  | .dutHost => readFaults DutHostPortEntry.codec data fun _ => []

theorem TestHostPortEntry.fault?_check (d : TestHostPortEntry) : fault? d.check = d.faults.head? := by
  obtain ⟨mac, ip, gateway⟩ := d
  unfold check faults faultUnless
  by_cases isMac : Address.isMac mac = true
  · by_cases isIp : Address.isIp ip = true
    · cases gateway with
      | none => simp [isMac, isIp, fault?]
      | some g => by_cases isGateway : Address.isIp g = true <;> simp [isMac, isIp, isGateway, fault?]
    · simp [isMac, isIp, fault?]
  · simp [isMac, fault?]

theorem fault?_readPortData {α : Type} (codec : Json.Codec α) (data : Json) :
    fault? (readPortData codec data) = (readFaults codec data fun _ => []).head? := by
  unfold readPortData readFaults
  cases codec.ofTree data <;> rfl

theorem fault?_readPortData_check (data : Json) :
    fault? ((readPortData TestHostPortEntry.codec data).bind TestHostPortEntry.check) =
      (readFaults TestHostPortEntry.codec data TestHostPortEntry.faults).head? := by
  unfold readPortData readFaults
  cases TestHostPortEntry.codec.ofTree data with
  | error fault => rfl
  | ok d => exact d.fault?_check

/-- A role is made of the data of a port, unless the port is on a host and faces another host. -/
theorem fault?_resolveRole (kind far : NodeKind) (data : Json) :
    fault? (resolveRole kind far data) =
      (faultUnless (kind = .switch ∨ far = .switch) (PortFault.notOnSwitch kind far) ++
        dataFaults kind data).head? := by
  by_cases proper : kind = .switch ∨ far = .switch
  · rw [faultUnless_eq_nil_iff.mpr proper, List.nil_append]
    cases kind with
    | switch => exact (fault?_map _ _).trans (fault?_readPortData _ data)
    | testHost =>
      obtain rfl : far = .switch := by simpa using proper
      exact (fault?_map _ _).trans (fault?_readPortData_check data)
    | dutHost =>
      obtain rfl : far = .switch := by simpa using proper
      exact (fault?_map _ _).trans (fault?_readPortData _ data)
  · rw [faultUnless, if_neg proper]
    cases kind <;> cases far <;> simp at proper <;> rfl

/-! ### Faults of a file -/

namespace TopologyFile

/-- The sections that are missing. -/
def sectionFaults (file : TopologyFile) : List TopologyFault :=
  faultUnless (file.links.isSome = true) (.missingSection "link-list") ++
    faultUnless (file.switches.isSome = true) (.missingSection "dispatchers") ++
    faultUnless (file.testHosts.isSome = true) (.missingSection "test-hosts") ++
    faultUnless (file.dutHosts.isSome = true) (.missingSection "dut-hosts")

/-- What is wrong with a port: its link, then its data. -/
def portFaults (file : TopologyFile) (kind : NodeKind) (e : Endpoint) (data : Json) : List PortFault :=
  file.linkFaults kind e ++ dataFaults kind data

/-- What is wrong with the ports of a declared node. -/
def nodeFaults (file : TopologyFile) (d : NodeEntry) : List TopologyFault :=
  d.ports.entries.flatMap fun entry =>
    (file.portFaults d.kind ⟨d.name, entry.1⟩ entry.2).map (.port ⟨d.name, entry.1⟩)

/-- All that is wrong with a file, in the order in which it is looked for: missing sections, names that are given
    twice, and the ports of all declared nodes. -/
def faults (file : TopologyFile) : List TopologyFault :=
  file.sectionFaults ++ (repeatedNames (file.declared.map NodeEntry.name)).map .duplicateNode ++
    file.declared.flatMap file.nodeFaults

theorem fault?_require {α : Type} (name : String) (given : Option α) :
    fault? (require name given) = (faultUnless (given.isSome = true) (TopologyFault.missingSection name)).head? := by
  cases given <;> rfl

theorem fault?_sections (file : TopologyFile) : fault? (TopologySections.ofFile file) = file.sectionFaults.head? := by
  simp only [sectionFaults, List.head?_append, ← fault?_require, Option.or_assoc]
  exact fault?_bind fun _ _ => fault?_bind fun _ _ => fault?_both _ _ _

end TopologyFile

namespace TopologySections
variable {file : TopologyFile} {s : TopologySections}

theorem names_declared (sections : ofFile file = .ok s) : file.declared.map NodeEntry.name = s.names := by
  obtain ⟨links, _, rfl⟩ := ofFile_ok_iff.mp sections
  simp [TopologyFile.declared, names, Index.names, Function.comp_def]

theorem farEnd?_eq (sections : ofFile file = .ok s) (e : Endpoint) : s.links.farEnd? e = file.farEnd? e := by
  obtain ⟨links, table, rfl⟩ := ofFile_ok_iff.mp sections
  rw [table, LinkTable.farEnd?_ofLinks]
  rfl

theorem kindOf?_eq (sections : ofFile file = .ok s) (name : String) :
    file.kindOf? name = ((s.switches.get? name).map fun _ => NodeKind.switch).or
      (((s.testHosts.get? name).map fun _ => NodeKind.testHost).or
        ((s.dutHosts.get? name).map fun _ => NodeKind.dutHost)) := by
  obtain ⟨links, _, rfl⟩ := ofFile_ok_iff.mp sections
  simp only [TopologyFile.kindOf?, TopologyFile.declared, Option.getD_some, List.find?_append, List.find?_map,
    Option.map_or, Option.map_map, Option.or_assoc, Index.get?]
  rfl

/-- Where no name is given twice, it does not matter in which order the sections are searched for it. -/
theorem kind?_eq (sections : ofFile file = .ok s) (distinct : s.names.Nodup) (name : String) :
    s.kind? name = file.kindOf? name := by
  obtain ⟨before, _, dutHostsApart⟩ := List.nodup_append.mp distinct
  obtain ⟨_, _, testHostsApart⟩ := List.nodup_append.mp before
  rw [kindOf?_eq sections, kind?, Index.contains, Index.contains, Index.contains]
  cases switch : s.switches.get? name with
  | none => cases s.testHosts.get? name <;> cases s.dutHosts.get? name <;> rfl
  | some entry =>
    have known := Index.mem_names.mpr ⟨entry, switch⟩
    have noTestHost : s.testHosts.get? name = none :=
      Index.get?_eq_none fun host => testHostsApart name known name host rfl
    have noDutHost : s.dutHosts.get? name = none :=
      Index.get?_eq_none fun host => dutHostsApart name (List.mem_append_left _ known) name host rfl
    rw [noTestHost, noDutHost]
    rfl

theorem fault?_resolvePort (sections : ofFile file = .ok s) (distinct : s.names.Nodup) (kind : NodeKind) (e : Endpoint)
    (data : Json) : fault? (s.resolvePort kind e data) = (file.portFaults kind e data).head? := by
  rw [resolvePort, TopologyFile.portFaults, TopologyFile.linkFaults, ← farEnd?_eq sections, farKind]
  cases s.links.farEnd? e with
  | none => rfl
  | some far =>
    simp only [← kind?_eq sections distinct]
    cases s.kind? far.node with
    | none => rfl
    | some farKind =>
      exact (fault?_bind_pure _ _).trans (fault?_resolveRole kind farKind data)

theorem fault?_resolveNode (sections : ofFile file = .ok s) (distinct : s.names.Nodup) (d : NodeEntry) :
    fault? (s.resolveNode d.kind d.datapathId d.ports d.name) = (file.nodeFaults d).head? := by
  refine (fault?_bind_pure _ _).trans (Index.fault?_traverse fun entry _ => ?_)
  exact fault?_mapError_eq (fault?_resolvePort sections distinct _ _ _) _

/-- Where no name is given twice, nodes are resolved, or the first fault of their ports is reported. -/
theorem fault?_resolve (sections : ofFile file = .ok s) (distinct : s.names.Nodup) :
    fault? s.resolve = (file.declared.flatMap file.nodeFaults).head? := by
  have each := fault?_resolveNode sections distinct
  have inOrder : fault? s.resolve = _ := fault?_bind fun _ _ => fault?_both _ _ _
  rw [inOrder, Index.fault?_traverse fun e _ => each ⟨e.1, .switch, e.2.datapathId, e.2.ports⟩,
    Index.fault?_traverse fun e _ => each ⟨e.1, .testHost, 0, e.2.ports⟩,
    Index.fault?_traverse fun e _ => each ⟨e.1, .dutHost, 0, e.2.ports⟩]
  obtain ⟨links, _, rfl⟩ := ofFile_ok_iff.mp sections
  simp only [TopologyFile.declared, Option.getD_some, List.flatMap_append, List.flatMap_map, List.head?_append,
    Option.or_assoc]

end TopologySections

/-! ### Files with nothing wrong -/

/-- Data that a port on a node of a kind can have: it has the form that belongs to the kind, and the addresses of a
    test host are proper ones. -/
def IsPortData (kind : NodeKind) (data : Json) : Prop :=
  match kind with
  | .switch => ∃ d, SwitchPortEntry.codec.ofTree data = .ok d
  | .testHost => ∃ d, TestHostPortEntry.codec.ofTree data = .ok d ∧ Address.isMac d.mac = true ∧
      Address.isIp d.ip = true ∧ ∀ gateway, d.gateway = some gateway → Address.isIp gateway = true
  | .dutHost => ∃ d, DutHostPortEntry.codec.ofTree data = .ok d

theorem readFaults_eq_nil_iff {α : Type} {codec : Json.Codec α} {data : Json} {faults : α → List PortFault} :
    readFaults codec data faults = [] ↔ ∃ a, codec.ofTree data = .ok a ∧ faults a = [] := by
  unfold readFaults
  cases codec.ofTree data <;> simp

theorem TestHostPortEntry.faults_eq_nil_iff {d : TestHostPortEntry} : d.faults = [] ↔ Address.isMac d.mac = true ∧
    Address.isIp d.ip = true ∧ ∀ gateway, d.gateway = some gateway → Address.isIp gateway = true := by
  rw [faults, List.append_eq_nil_iff, faultUnless_eq_nil_iff, List.flatMap_eq_nil_iff, List.forall_mem_cons]
  simp only [faultUnless_eq_nil_iff, Option.mem_toList]

theorem dataFaults_eq_nil_iff {kind : NodeKind} {data : Json} : dataFaults kind data = [] ↔ IsPortData kind data := by
  cases kind with
  | switch => exact readFaults_eq_nil_iff.trans (by simp [IsPortData])
  | testHost =>
    refine readFaults_eq_nil_iff.trans (exists_congr fun d => and_congr_right fun _ => ?_)
    exact TestHostPortEntry.faults_eq_nil_iff
  | dutHost => exact readFaults_eq_nil_iff.trans (by simp [IsPortData])

namespace TopologyFile

/-- A port of a declared node with which nothing is wrong. Its first link leads to a declared node, which is a switch
    if the port is on a host, and its data are those of ports on such nodes. -/
structure Admits (file : TopologyFile) (d : NodeEntry) (port : String) (data : Json) : Prop where
  linked : ∃ l far m, firstLink? (file.links.getD []) ⟨d.name, port⟩ = some l ∧
    l.farEnd? ⟨d.name, port⟩ = some far ∧ m ∈ file.declared ∧ m.name = far.node ∧
    (d.kind ≠ .switch → m.kind = .switch)
  data : IsPortData d.kind data

section
variable {file : TopologyFile} (distinct : (file.declared.map NodeEntry.name).Nodup)
include distinct

theorem kindOf?_eq_some_iff {name : String} {kind : NodeKind} :
    file.kindOf? name = some kind ↔ ∃ m ∈ file.declared, m.name = name ∧ m.kind = kind := by
  rw [kindOf?, Option.map_eq_some_iff]
  constructor
  · rintro ⟨m, found, ofKind⟩
    exact ⟨m, List.mem_of_find?_eq_some found, by simpa using List.find?_some found, ofKind⟩
  · rintro ⟨m, member, called, ofKind⟩
    have known : (file.declared.find? fun d => d.name = name).isSome = true := by
      rw [List.find?_isSome]
      exact ⟨m, member, by simpa using called⟩
    obtain ⟨other, found⟩ := Option.isSome_iff_exists.mp known
    have calledToo : other.name = name := by simpa using List.find?_some found
    have one := List.inj_on_of_nodup_map distinct (List.mem_of_find?_eq_some found) member (calledToo.trans called.symm)
    exact ⟨other, found, one ▸ ofKind⟩

theorem linkFaults_eq_nil_iff {kind : NodeKind} {e : Endpoint} : file.linkFaults kind e = [] ↔
    ∃ l far m, firstLink? (file.links.getD []) e = some l ∧ l.farEnd? e = some far ∧ m ∈ file.declared ∧
      m.name = far.node ∧ (kind ≠ .switch → m.kind = .switch) := by
  have proper : file.linkFaults kind e = [] ↔ ∃ far farKind, file.farEnd? e = some far ∧
      file.kindOf? far.node = some farKind ∧ (kind = .switch ∨ farKind = .switch) := by
    unfold linkFaults
    cases file.farEnd? e with
    | none => simp
    | some far => cases known : file.kindOf? far.node <;> simp [known, faultUnless_eq_nil_iff]
  simp only [proper, farEnd?, Option.bind_eq_some_iff, kindOf?_eq_some_iff distinct, Decidable.or_iff_not_imp_left]
  constructor
  · rintro ⟨far, _, ⟨l, first, leads⟩, ⟨m, member, called, rfl⟩, toSwitch⟩
    exact ⟨l, far, m, first, leads, member, called, toSwitch⟩
  · rintro ⟨l, far, m, first, leads, member, called, toSwitch⟩
    exact ⟨far, m.kind, ⟨l, first, leads⟩, ⟨m, member, called, rfl⟩, toSwitch⟩

theorem nodeFaults_eq_nil_iff {d : NodeEntry} : file.nodeFaults d = [] ↔
    ∀ port data, d.ports.get? port = some data → file.Admits d port data := by
  simp only [nodeFaults, List.flatMap_eq_nil_iff, List.map_eq_nil_iff, portFaults, List.append_eq_nil_iff,
    linkFaults_eq_nil_iff distinct, dataFaults_eq_nil_iff, Index.get?_eq_some_iff]
  constructor
  · intro each port data member
    obtain ⟨linked, proper⟩ := each (port, data) member
    exact ⟨linked, proper⟩
  · rintro each ⟨port, data⟩ member
    obtain ⟨linked, proper⟩ := each port data member
    exact ⟨linked, proper⟩

end

theorem sectionFaults_eq_nil_iff {file : TopologyFile} : file.sectionFaults = [] ↔
    file.links.isSome ∧ file.switches.isSome ∧ file.testHosts.isSome ∧ file.dutHosts.isSome := by
  simp only [sectionFaults, List.append_eq_nil_iff, faultUnless_eq_nil_iff, and_assoc]

/-- Nothing is wrong with a file that has all sections, no name twice and only ports that can be admitted. -/
theorem faults_eq_nil_iff {file : TopologyFile} : file.faults = [] ↔
    (file.links.isSome ∧ file.switches.isSome ∧ file.testHosts.isSome ∧ file.dutHosts.isSome) ∧
      (file.declared.map NodeEntry.name).Nodup ∧
      ∀ d ∈ file.declared, ∀ port data, d.ports.get? port = some data → file.Admits d port data := by
  rw [faults, List.append_eq_nil_iff, List.append_eq_nil_iff, List.map_eq_nil_iff, repeatedNames_eq_nil_iff,
    sectionFaults_eq_nil_iff, List.flatMap_eq_nil_iff, and_assoc]
  refine and_congr_right fun _ => and_congr_right fun distinct => ?_
  exact forall_congr' fun d => imp_congr_right fun _ => nodeFaults_eq_nil_iff distinct

/-- What is wrong with a file does not change as long as each declared port keeps its first link. -/
theorem faults_of_firstLinks {file : TopologyFile} {links others : List Link} (given : file.links = some links)
    (same : ∀ d ∈ file.declared, ∀ port ∈ d.ports.names,
      firstLink? others ⟨d.name, port⟩ = firstLink? links ⟨d.name, port⟩) :
    { file with links := some others }.faults = file.faults := by
  have ofPort : ∀ d ∈ file.declared, ∀ entry ∈ d.ports.entries,
      { file with links := some others }.farEnd? ⟨d.name, entry.1⟩ = file.farEnd? ⟨d.name, entry.1⟩ := by
    intro d member entry inside
    have named : entry.1 ∈ d.ports.names := List.mem_map_of_mem inside
    rw [farEnd?, farEnd?, given, Option.getD_some, Option.getD_some, same d member entry.1 named]
  have ofNode : ∀ d ∈ file.declared, { file with links := some others }.nodeFaults d = file.nodeFaults d := by
    intro d member
    refine List.flatMap_congr fun entry inside => ?_
    rw [portFaults, portFaults, linkFaults, linkFaults, ofPort d member entry inside]
    rfl
  rw [faults, faults, sectionFaults, sectionFaults, given]
  congr 1
  exact List.flatMap_congr ofNode

end TopologyFile

namespace Topology

/-- The fault of a file is the first of all that is wrong with it. -/
theorem fault?_ofFile (file : TopologyFile) : fault? (ofFile file) = file.faults.head? := by
  rw [ofFile, TopologyFile.faults, List.append_assoc, List.head?_append, ← TopologyFile.fault?_sections]
  cases sections : TopologySections.ofFile file with
  | error fault => rfl
  | ok s =>
    rw [ok_bind, List.head?_append, List.head?_map, ← firstRepeated?_eq, TopologySections.names_declared sections]
    cases repeated : firstRepeated? [] s.names with
    | some name => rfl
    | none => exact TopologySections.fault?_resolve sections (firstRepeated?_eq_none_iff.mp repeated).1

/-- A file is accepted if and only if it has all sections, no name occurs in two of them, and every port has a link to
    a declared node, which is a switch where the port is on a host, and data that belong to the kind of its node.
    Otherwise the first fault is reported: a missing section, a name that is given twice, or of the first port with
    a fault the first of its link, the node at the far end, the kind of this node, the form of the data and the
    addresses. Links that have no declared port as an end make no difference. -/
theorem accepted_or_first_fault (file : TopologyFile) :
    (∀ fault, ofFile file = .error fault ↔ file.faults.head? = some fault) ∧
    ((∃ t, ofFile file = .ok t) ↔
      (file.links.isSome ∧ file.switches.isSome ∧ file.testHosts.isSome ∧ file.dutHosts.isSome) ∧
      (file.declared.map NodeEntry.name).Nodup ∧
      ∀ d ∈ file.declared, ∀ port data, d.ports.get? port = some data → file.Admits d port data) ∧
    ∀ links others : List Link, file.links = some links →
      (∀ d ∈ file.declared, ∀ port ∈ d.ports.names,
        (others.filter fun l => l.has ⟨d.name, port⟩) = links.filter fun l => l.has ⟨d.name, port⟩) →
      fault? (ofFile { file with links := some others }) = fault? (ofFile file) := by
  refine ⟨fun fault => ?_, ?_, fun links others given same => ?_⟩
  · rw [← fault?_eq_some_iff, fault?_ofFile]
  · rw [← fault?_eq_none_iff, fault?_ofFile, List.head?_eq_none_iff]
    exact TopologyFile.faults_eq_nil_iff
  · rw [fault?_ofFile, fault?_ofFile]
    refine congrArg List.head? (TopologyFile.faults_of_firstLinks given fun d member port named => ?_)
    rw [firstLink?_eq_head?, firstLink?_eq_head?, same d member port named]

/-- The trunk with a port on the second switch that has no link, and a test host without a proper address. -/
def looseFile : TopologyFile :=
  { trunkFile with
    switches := some (.ofList [
      ("s1", ⟨1, .ofList [("p1", .object [("number", .natural 1)]), ("p2", .object [("number", .natural 2)])]⟩),
      ("s2", ⟨2, .ofList [("p1", .object [("number", .natural 1)]), ("p2", .object [("number", .natural 2)]),
        ("p3", .object [("number", .natural 3)])]⟩)])
    testHosts := some (.ofList [("h", ⟨.ofList [("e",
      .object [("mac-addr", .string "0a:00"), ("ip-addr", .string "192.168.2.101/33")])]⟩)]) }

/-- A link between nodes that are not declared. -/
def strayLink : Link := ⟨⟨"s8", "p1"⟩, ⟨"s9", "p1"⟩⟩

/-- The port without a link is reported before the addresses, and a stray link changes nothing about it. The trunk
    itself is accepted. -/
theorem accepted_or_first_fault_loose :
    (∃ t, ofFile trunkFile = .ok t) ∧
      looseFile.faults = [.port ⟨"s2", "p3"⟩ .noLink, .port ⟨"h", "e"⟩ (.badMac "0a:00"),
        .port ⟨"h", "e"⟩ (.badIp "192.168.2.101/33")] ∧
      ofFile looseFile = .error (.port ⟨"s2", "p3"⟩ .noLink) ∧
      fault? (ofFile { looseFile with links := some (strayLink :: looseFile.links.getD []) }) =
        some (.port ⟨"s2", "p3"⟩ .noLink) := by
  have faults : looseFile.faults = [.port ⟨"s2", "p3"⟩ .noLink, .port ⟨"h", "e"⟩ (.badMac "0a:00"),
      .port ⟨"h", "e"⟩ (.badIp "192.168.2.101/33")] := by rfl
  obtain ⟨reported, _, unchanged⟩ := accepted_or_first_fault looseFile
  have fails : ofFile looseFile = .error (.port ⟨"s2", "p3"⟩ .noLink) := by
    rw [reported, faults]
    rfl
  refine ⟨?_, faults, fails, ?_⟩
  · have sound : trunkFile.faults = [] := by rfl
    exact (accepted_or_first_fault trunkFile).2.1.mpr (TopologyFile.faults_eq_nil_iff.mp sound)
  · rw [unchanged _ _ rfl (by decide), fails]
    rfl

end Topology
end PatchPanel
