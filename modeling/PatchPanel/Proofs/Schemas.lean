import PatchPanel.OpenFlow.FlowMod
import PatchPanel.Topology.File
import PatchPanel.Wiring.File
import PatchPanel.Proofs.Building
import PatchPanel.Proofs.Json.Restoring

/-!
What is written is read back, for every type that is written as JSON (`schemas_roundTrip`). Each record restores its
values field by field. A topology file has data of any form in it, which come back if they are such as a reader makes
them: sorted, without floating-point numbers, and nested no deeper than the reader goes.
-/
namespace PatchPanel
open Json (Codec Field Fields)

/-! ### Rules -/

namespace Action

/-- The name of a kind of actions. -/
def Kind.name : Kind → String
  | .output => "OUTPUT"
  | .setVlanVid => "SET_VLAN_VID"
  | .stripVlan => "STRIP_VLAN"
  | .pushVlan => "PUSH_VLAN"
  | .popVlan => "POP_VLAN"
  | .pushMpls => "PUSH_MPLS"
  | .popMpls => "POP_MPLS"
  | .setField => "SET_FIELD"

/-- The kind of an action. -/
def kind : Action → Kind
  | .output _ => .output
  | .setVlanVid _ => .setVlanVid
  | .stripVlan => .stripVlan
  | .pushVlan _ => .pushVlan
  | .popVlan => .popVlan
  | .pushMpls _ => .pushMpls
  | .popMpls _ => .popMpls
  | .setField _ _ => .setField

/-- The members of a written action beside the name of its kind. -/
def members : Action → List (String × Json)
  | .output port => [("port", Codec.word32.write port)]
  | .setVlanVid vlanVid => [("vlan_vid", Codec.word16.write vlanVid)]
  | .pushVlan ethType | .pushMpls ethType | .popMpls ethType => [("ethertype", Codec.word16.write ethType)]
  | .stripVlan | .popVlan => []
  | .setField field value => [("field", .string field), ("value", Codec.word32.write value)]

theorem write_eq (a : Action) : a.write = .object ((kindKey, .string a.kind.name) :: a.members) := by
  cases a <;> rfl

/-- The names of the kinds differ, and the one of each kind is read as the kind. -/
theorem choose_name (kind : Kind) : Codec.choose kinds kind.name = .ok kind := by
  cases kind <;> rfl

theorem members_plain (a : Action) : ∀ m ∈ a.members, m.1 ≠ kindKey ∧ m.2.depth = 0 := by
  cases a <;> simp [members, kindKey, Codec.word16, Codec.word32, Json.depth]

/-- The one field of an action is read from the member that it was written as. -/
theorem readOne_write {α : Type} {codec : Codec α} {value : α} (restores : codec.Restores value) (name label : String) :
    readOne name label codec (.object [(name, codec.write value)]) = .ok value := by
  let fields : Fields [α] := .cons (.required name codec) .nil
  have distinct : fields.names.Nodup := List.pairwise_singleton _ name
  have field : fields.Restores (value, ()) := ⟨restores, trivial⟩
  have read := Fields.read_write distinct field ("struct variant Action::" ++ label) false .variant
  exact congrArg (Except.map fun row => row.1) read

/-- The fields of an action are read from the members that they were written as. -/
theorem readFields_members (a : Action) : readFields a.kind (.object a.members) = .ok a := by
  cases a with
  | output port =>
    exact congrArg (Except.map Action.output) (readOne_write (Codec.restores_word32 port) "port" "Output")
  | setVlanVid vlanVid =>
    exact congrArg (Except.map Action.setVlanVid)
      (readOne_write (Codec.restores_word16 vlanVid) "vlan_vid" "SetVlanVid")
  | stripVlan => rfl
  | pushVlan ethType =>
    exact congrArg (Except.map Action.pushVlan) (readOne_write (Codec.restores_word16 ethType) "ethertype" "PushVlan")
  | popVlan => rfl
  | pushMpls ethType =>
    exact congrArg (Except.map Action.pushMpls) (readOne_write (Codec.restores_word16 ethType) "ethertype" "PushMpls")
  | popMpls ethType =>
    exact congrArg (Except.map Action.popMpls) (readOne_write (Codec.restores_word16 ethType) "ethertype" "PopMpls")
  | setField field value =>
    let fields : Fields [String, UInt32] := .cons (.required "field" .string) <| .cons (.required "value" .word32) .nil
    have distinct : fields.names.Nodup := by decide
    have restores : fields.Restores (field, value, ()) :=
      ⟨Codec.restores_string field, Codec.restores_word32 value, trivial⟩
    have read := Fields.read_write distinct restores "struct variant Action::SetField" false .variant
    exact congrArg (Except.map fun row => Action.setField row.1 row.2.1) read

/-- Members that are no lists or objects are collected behind the kind. -/
theorem collect_plain {room : Nat} {kind : Option Kind} {members : List (String × Json)} (others : List (String × Json))
    (plain : ∀ m ∈ members, m.1 ≠ kindKey ∧ m.2.depth = 0) :
    collect room kind others (Json.toMembers members) = .ok (kind, others.reverse ++ members) := by
  induction members generalizing others with
  | nil => simp [Json.toMembers, collect]
  | cons m members ih =>
    obtain ⟨key, value⟩ := m
    obtain ⟨⟨other, flat⟩, rest⟩ := List.forall_mem_cons.mp plain
    have tree : value.toOutline.tree room = .ok value := Json.tree_toOutline (by rw [flat]; exact Nat.zero_le _)
    simp only [Json.toMembers, collect, if_neg other, tree]
    rw [ih ((key, value) :: others) rest, List.reverse_cons, List.append_assoc]
    rfl

/-- An action of every kind is read back, inside any number of lists and objects. -/
theorem restores (depth : Nat) (a : Action) : (codec depth).Restores a := by
  constructor
  · intro source
    have named : readKind (.string a.kind.name) = .ok a.kind := choose_name a.kind
    simp only [codec, write_eq, Json.toOutline, Json.toMembers, read, collect, named, collect_plain [] a.members_plain]
    exact a.readFields_members
  · cases a <;>
      simp [codec, write, Json.HasIntegers, Json.MembersHaveIntegers, Codec.word16, Codec.word32, Json.IsInteger]

end Action

theorem Match.restores (m : Match) : codec.Restores m := by
  have word16 : ∀ name value, (Field.optionalMember name .word16).Restores value := fun _ _ =>
    Field.restores_optionalMember (fun n _ => Codec.restores_word16 n) nofun
  have word32 : ∀ name value, (Field.optionalMember name .word32).Restores value := fun _ _ =>
    Field.restores_optionalMember (fun n _ => Codec.restores_word32 n) nofun
  have string : ∀ name value, (Field.optionalMember name .string).Restores value := fun _ _ =>
    Field.restores_optionalMember (fun s _ => Codec.restores_string s) nofun
  apply Codec.restores_record (by decide) rfl
  exact ⟨word32 _ _, string _ _, string _ _, word16 _ _, string _ _, string _ _, word16 _ _, word16 _ _, word32 _ _,
    trivial⟩

theorem Rule.restores (depth : Nat) (r : Rule) : (codec depth).Restores r := by
  apply Codec.restores_record (by simp [Fields.names, Field.optional, Field.required]) rfl
  exact ⟨Field.restores_optional (fun n _ => Codec.restores_word16 n) (by rintro _ ⟨⟩),
    Field.restores_required (Match.restores r.conditions),
    Field.restores_required (Codec.restores_list fun a _ => Action.restores (depth + 2) a), trivial⟩

theorem Command.restores (c : Command) : codec.Restores c := by
  apply Codec.restores_choice
  cases c <;> rfl

theorem FlowMod.restores (m : FlowMod) : codec.Restores m := by
  apply Codec.restores_record (by simp [Fields.names, Field.required]) rfl
  exact ⟨Field.restores_required (Codec.restores_string m.switch),
    Field.restores_required (Codec.restores_word64 m.dpid), Field.restores_required (Command.restores m.command),
    Field.restores_required (Rule.restores 1 m.rule), trivial⟩

/-! ### Wire files -/

theorem Endpoint.restores (e : Endpoint) : codec.Restores e :=
  Codec.restores_convert (Codec.restores_pair (Codec.restores_string e.node) (Codec.restores_string e.port)) rfl

theorem WireEntry.restores (w : WireEntry) : codec.Restores w := by
  apply Codec.restores_record (by decide) rfl
  exact ⟨Field.restores_optional (fun s _ => Codec.restores_string s) nofun,
    Field.restores_optional (fun _ _ => Codec.restores_list fun e _ => e.restores) nofun,
    Field.restores_optional (fun e _ => e.restores) nofun, Field.restores_optional (fun e _ => e.restores) nofun,
    trivial⟩

theorem GroupEntry.restores (g : GroupEntry) : codec.Restores g := by
  apply Codec.restores_record (by decide) rfl
  exact ⟨Field.restores_optional (fun n _ => Codec.restores_word64 n) nofun,
    Field.restores_optional (fun _ _ => Codec.restores_list fun s _ => Codec.restores_string s) nofun, trivial⟩

theorem WireFile.restores (f : WireFile) : codec.Restores f := by
  apply Codec.restores_record (by decide) rfl
  exact ⟨Field.restores_optional (fun _ _ => Codec.restores_index fun e _ => e.2.restores) nofun,
    Field.restores_optional (fun _ _ => Codec.restores_index fun e _ => e.2.restores) nofun, trivial⟩

/-! ### Topology files -/

theorem SwitchPortEntry.restores (d : SwitchPortEntry) : codec.Restores d := by
  apply Codec.restores_record (by decide) rfl
  exact ⟨Field.restores_required (Codec.restores_word32 d.number), trivial⟩

theorem TestHostPortEntry.restores (d : TestHostPortEntry) : codec.Restores d := by
  apply Codec.restores_record (by decide) rfl
  exact ⟨Field.restores_required (Codec.restores_string d.mac), Field.restores_required (Codec.restores_string d.ip),
    Field.restores_nullable (fun s _ => Codec.restores_string s) nofun, trivial⟩

theorem DutHostPortEntry.restores (d : DutHostPortEntry) : codec.Restores d := by
  apply Codec.restores_record (by decide) rfl
  exact ⟨Field.restores_nullable (fun n _ => Codec.restores_word32 n) nofun,
    Field.restores_nullable (fun b _ => Codec.restores_flag b) nofun, trivial⟩

theorem Link.restores (l : Link) : codec.Restores l :=
  Codec.restores_convert (Codec.restores_pair l.first.restores l.second.restores) rfl

/-- The data of a port as a reader of topology files makes them: with sorted members, without floating-point numbers,
    and with no more nesting than is read below a port. -/
structure Json.IsPortData (j : Json) : Prop where
  sorted : j.IsSorted
  integers : HasIntegers j
  shallow : portDataDepth + j.depth ≤ Codec.maxDepth

/-- The data of all ports of a topology file. -/
def TopologyFile.portData (f : TopologyFile) : List Json :=
  ((f.switches.getD .empty).values.flatMap fun s => s.ports.values) ++
    ((f.testHosts.getD .empty).values.flatMap fun h => h.ports.values) ++
    (f.dutHosts.getD .empty).values.flatMap fun h => h.ports.values

theorem restores_portList {ports : Index Json} (each : ∀ j ∈ ports.values, j.IsPortData) :
    portListCodec.Restores ports := by
  refine Codec.restores_index fun e member => ?_
  obtain ⟨sorted, integers, shallow⟩ := each e.2 (List.mem_map_of_mem member)
  exact Codec.restores_data sorted integers shallow

theorem SwitchEntry.restores {s : SwitchEntry} (each : ∀ j ∈ s.ports.values, j.IsPortData) : codec.Restores s := by
  apply Codec.restores_record (by simp [Fields.names, Field.required]) rfl
  exact ⟨Field.restores_required (Codec.restores_word64 s.datapathId), Field.restores_required (restores_portList each),
    trivial⟩

theorem HostEntry.restores {h : HostEntry} (each : ∀ j ∈ h.ports.values, j.IsPortData) : codec.Restores h := by
  apply Codec.restores_record (by simp [Fields.names, Field.required]) rfl
  exact ⟨Field.restores_required (restores_portList each), trivial⟩

theorem TopologyFile.restores {f : TopologyFile} (each : ∀ j ∈ f.portData, j.IsPortData) : codec.Restores f := by
  obtain ⟨switches, testHosts, dutHosts, links⟩ := f
  simp only [portData, List.mem_append, List.mem_flatMap] at each
  apply Codec.restores_record (by simp [Fields.names, Field.optional]) rfl
  refine ⟨Field.restores_optional (fun index given => ?_) (by rintro _ ⟨⟩),
    Field.restores_optional (fun index given => ?_) (by rintro _ ⟨⟩),
    Field.restores_optional (fun index given => ?_) (by rintro _ ⟨⟩),
    Field.restores_optional (fun _ _ => Codec.restores_list fun l _ => l.restores) (by rintro _ ⟨⟩), trivial⟩
  all_goals
    cases given
    refine Codec.restores_index fun e member => ?_
    have value := List.mem_map_of_mem (f := Prod.snd) member
  · exact SwitchEntry.restores fun j inside => each j (.inl (.inl ⟨e.2, value, inside⟩))
  · exact HostEntry.restores fun j inside => each j (.inl (.inr ⟨e.2, value, inside⟩))
  · exact HostEntry.restores fun j inside => each j (.inr ⟨e.2, value, inside⟩)

/-! ### Flags that are left out -/

namespace Json.Fields

/-- The names of the fields that are not hidden in a row. -/
def shown : {types : List Type} → Fields types → Json.Row types → List String
  | _, .nil, () => []
  | _, .cons field rest, (value, row) => (if field.hidden value then [] else [field.name]) ++ rest.shown row

theorem keys_write {types : List Type} (fields : Fields types) (row : Json.Row types) :
    (fields.write row).map Prod.fst = fields.shown row := by
  induction fields with
  | nil => rfl
  | cons field rest ih =>
    obtain ⟨value, row⟩ := row
    simp only [write, shown]
    split
    · exact ih row
    · rw [List.map_cons, ih row]
      rfl

end Json.Fields

/-- A flag of a request is written exactly if it is on. -/
theorem Request.flags_written (r : Request) : ∃ members, codec.write r = .object members ∧
    ("pop_vlan" ∈ members.map Prod.fst ↔ r.popVlan = true) ∧
    ("pop_mpls" ∈ members.map Prod.fst ↔ r.popMpls = true) := by
  refine ⟨fields.write r.toRow, rfl, ?_, ?_⟩
  all_goals
    rw [Fields.keys_write]
    simp only [fields, toRow, Fields.shown, Field.required, Field.optional, Field.switch, List.mem_append]
    simp

/-! ### All types together -/

/-- The value is read back from the texts that it is written as, without blanks and indented at any level, and from
    its data tree. -/
structure Json.Codec.RoundTrips {α : Type} (codec : Codec α) (value : α) : Prop where
  compact : Json.decode codec (Json.encode codec value) = .ok value
  pretty : ∀ level, Json.decode codec ((codec.write value).prettyAt level) = .ok value
  tree : codec.ofTree (codec.write value) = .ok value

theorem Json.Codec.Restores.roundTrips {α : Type} {codec : Codec α} {value : α} (restores : codec.Restores value) :
    codec.RoundTrips value :=
  ⟨restores.decode (spells_compact restores.integers),
    fun level => restores.decode (spells_pretty restores.integers level), restores.read .tree⟩

/-- Reading undoes writing for every type that is written as JSON: topology files, whose ports have data as a reader
    makes them, wire files, requests, of which the flags that are off are left out, rules at any depth, flow
    modifications and the data of ports. -/
theorem schemas_roundTrip :
    (∀ f : TopologyFile, (∀ j ∈ f.portData, j.IsPortData) → TopologyFile.codec.RoundTrips f) ∧
    (∀ f : WireFile, WireFile.codec.RoundTrips f) ∧
    (∀ r : Request, Request.codec.RoundTrips r ∧ ∃ members, Request.codec.write r = .object members ∧
      ("pop_vlan" ∈ members.map Prod.fst ↔ r.popVlan = true) ∧
      ("pop_mpls" ∈ members.map Prod.fst ↔ r.popMpls = true)) ∧
    (∀ (depth : Nat) (r : Rule), (Rule.codec depth).RoundTrips r) ∧
    (∀ m : FlowMod, FlowMod.codec.RoundTrips m) ∧
    (∀ d : SwitchPortEntry, SwitchPortEntry.codec.RoundTrips d) ∧
    (∀ d : TestHostPortEntry, TestHostPortEntry.codec.RoundTrips d) ∧
    ∀ d : DutHostPortEntry, DutHostPortEntry.codec.RoundTrips d :=
  ⟨fun _ each => (TopologyFile.restores each).roundTrips, fun f => f.restores.roundTrips,
    fun r => ⟨r.restores.roundTrips, r.flags_written⟩, fun depth r => (r.restores depth).roundTrips,
    fun m => m.restores.roundTrips, fun d => d.restores.roundTrips, fun d => d.restores.roundTrips,
    fun d => d.restores.roundTrips⟩

/-- A topology file with an empty section and one that is missing, names out of order, nested data, a number of 64
    bits and one below zero, and names with control characters and letters beyond ASCII. -/
def oddFile : TopologyFile where
  switches := some (.ofList [
    ("z", ⟨0xFFFFFFFFFFFFFFFF, .ofList [
      ("\x00 \"é𝄞", .object [
        ("a", .array [.null, .array [], .number (.negSucc 6)]),
        ("b", .object [("", .bool false)])]),
      ("\n", .natural 0xFFFFFFFFFFFFFFFF)]⟩),
    ("a", ⟨0, .empty⟩)])
  testHosts := some .empty
  dutHosts := none
  links := some []

/-- The odd file is read back, and is told from the one that lacks the empty section. -/
theorem schemas_roundTrip_odd :
    (∀ j ∈ oddFile.portData, j.IsPortData) ∧
    Json.decode TopologyFile.codec (Json.encode TopologyFile.codec oddFile) = .ok oddFile ∧
    Json.decode TopologyFile.codec (Json.encode TopologyFile.codec { oddFile with testHosts := none }) =
      .ok { oddFile with testHosts := none } := by
  have each : ∀ j ∈ oddFile.portData, j.IsPortData := by
    have data : oddFile.portData =
        [.object [("a", .array [.null, .array [], .number (.negSucc 6)]), ("b", .object [("", .bool false)])],
          .natural 0xFFFFFFFFFFFFFFFF] := rfl
    intro j member
    rw [data, List.mem_pair] at member
    rcases member with rfl | rfl
    · have inOrder : "a" < "b" := by decide
      exact ⟨⟨List.pairwise_pair.mpr inOrder,
          by simp [Json.IsSorted, Json.ItemsSorted, Json.MembersSorted, Increasing]⟩,
        by simp [Json.HasIntegers, Json.ItemsHaveIntegers, Json.MembersHaveIntegers, Json.IsInteger], by decide⟩
    · exact ⟨trivial, trivial, by decide⟩
  exact ⟨each, (schemas_roundTrip.1 oddFile each).compact,
    (schemas_roundTrip.1 { oddFile with testHosts := none } each).compact⟩

end PatchPanel
