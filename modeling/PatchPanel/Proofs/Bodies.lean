import PatchPanel.Proofs.Building
import PatchPanel.Proofs.Json.Records

/-!
Which request bodies are accepted. A text that opens with a brace is read as a request if and only if it denotes an
object with distinct known keys whose members have the forms and the ranges of the request's fields
(`Request.ofText_object`). So neither the order of the members nor the blanks between the tokens matter, and no key
may be added that is unknown or there already.
-/
namespace PatchPanel.Request

open Json (Codec Denotes Field Gives GivesFlag tokensOf)

/-! ### Bodies -/

/-- The keys that a request body may have. -/
def keys : List String :=
  ["dpid", "priority", "inport", "outport", "outports", "eth_src", "eth_dst", "vlan_vid", "mpls_label", "push_vlan",
    "set_vlan", "pop_vlan", "push_mpls", "pop_mpls"]

def number16 (n : UInt16) : Json := .natural n.toUInt64

def number32 (n : UInt32) : Json := .natural n.toUInt64

/-- The members of an object are those of a body that asks for the request. -/
structure IsBody (members : List (String × Json)) (r : Request) : Prop where
  distinct : (members.map Prod.fst).Nodup
  known : ∀ key ∈ members.map Prod.fst, key ∈ keys
  dpid : ("dpid", .natural r.dpid) ∈ members
  priority : Gives members "priority" number16 r.priority
  inPort : Gives members "inport" number32 r.inPort
  outPort : Gives members "outport" number32 r.outPort
  outPorts : Gives members "outports" (fun ports => .array (ports.map number32)) r.outPorts
  ethSrc : Gives members "eth_src" .string r.ethSrc
  ethDst : Gives members "eth_dst" .string r.ethDst
  vlanVid : Gives members "vlan_vid" number16 r.vlanVid
  mplsLabel : Gives members "mpls_label" number32 r.mplsLabel
  pushVlan : Gives members "push_vlan" number16 r.pushVlan
  setVlan : Gives members "set_vlan" number16 r.setVlan
  popVlan : GivesFlag members "pop_vlan" r.popVlan
  pushMpls : Gives members "push_mpls" number32 r.pushMpls
  popMpls : GivesFlag members "pop_mpls" r.popMpls
  vlanIds : ∀ id, r.vlanVid = some id ∨ r.pushVlan = some id ∨ r.setVlan = some id → 1 ≤ id ∧ id ≤ 4095
  mplsLabels : ∀ label, r.mplsLabel = some label ∨ r.pushMpls = some label → label ≤ 0xFFFFF

/-- The order of the members does not matter. -/
theorem IsBody.perm {members others : List (String × Json)} {r : Request} (same : members.Perm others)
    (body : IsBody members r) : IsBody others r where
  distinct := (same.map Prod.fst).nodup_iff.mp body.distinct
  known := fun key member => body.known key ((same.map Prod.fst).mem_iff.mpr member)
  dpid := same.mem_iff.mp body.dpid
  priority := body.priority.perm same
  inPort := body.inPort.perm same
  outPort := body.outPort.perm same
  outPorts := body.outPorts.perm same
  ethSrc := body.ethSrc.perm same
  ethDst := body.ethDst.perm same
  vlanVid := body.vlanVid.perm same
  mplsLabel := body.mplsLabel.perm same
  pushVlan := body.pushVlan.perm same
  setVlan := body.setVlan.perm same
  popVlan := body.popVlan.perm same
  pushMpls := body.pushMpls.perm same
  popMpls := body.popMpls.perm same
  vlanIds := body.vlanIds
  mplsLabels := body.mplsLabels

/-- No body has a key twice or one that is not known. -/
theorem not_isBody {before after : List (String × Json)} {key : String} (value : Json)
    (wrong : key ∉ keys ∨ key ∈ (before ++ after).map Prod.fst) (r : Request) :
    ¬ IsBody (before ++ (key, value) :: after) r := by
  intro body
  have front := body.perm List.perm_middle
  rcases wrong with unknown | repeated
  · exact unknown (front.known key List.mem_cons_self)
  · exact (List.nodup_cons.mp front.distinct).1 repeated

/-! ### Reading bodies -/

private theorem exact_ports : (Codec.list .word32).Exact := Codec.exact_word32.list

theorem codec_sound : codec.Sound := by
  have tag := (Codec.exact_word16.optional nofun).sound
  have port := (Codec.exact_word32.optional nofun).sound
  have ports := (exact_ports.optional nofun).sound
  have mac := (Codec.exact_string.optional nofun).sound
  have flag := Codec.exact_flag.sound
  exact .record ⟨Codec.exact_word64.sound, tag, port, port, ports, mac, mac, tag, port, tag, tag, flag, port, flag,
    trivial⟩

theorem codec_read_ok_iff {source : Json.Source} {o : Json.Outline} {r : Request} :
    codec.read source o = .ok r ↔ fields.read "struct FlowRequest" true source o = .ok r.toRow := by
  have read : codec.read source o = (fields.read "struct FlowRequest" true source o).map ofRow := rfl
  rw [read, map_eq_ok_iff]
  constructor
  · rintro ⟨row, isRead, rfl⟩
    exact isRead
  · exact fun isRead => ⟨r.toRow, isRead, rfl⟩

/-- The VLAN ids and the MPLS labels of an accepted request. -/
theorem check_ok_iff_ranges {r : Request} : r.check = .ok () ↔
    (∀ id, r.vlanVid = some id ∨ r.pushVlan = some id ∨ r.setVlan = some id → 1 ≤ id ∧ id ≤ 4095) ∧
      ∀ label, r.mplsLabel = some label ∨ r.pushMpls = some label → label ≤ 0xFFFFF := by
  rw [check_ok_iff]
  constructor
  · rintro ⟨vlanVid, pushVlan, setVlan, mplsLabel, pushMpls⟩
    refine ⟨fun id => ?_, fun label => ?_⟩
    · rintro (given | given | given)
      · exact vlanVid id given
      · exact pushVlan id given
      · exact setVlan id given
    · rintro (given | given)
      · exact mplsLabel label given
      · exact pushMpls label given
  · rintro ⟨ids, labels⟩
    exact ⟨fun id given => ids id (.inl given), fun id given => ids id (.inr (.inl given)),
      fun id given => ids id (.inr (.inr given)), fun label given => labels label (.inl given),
      fun label given => labels label (.inr given)⟩

/-- An object is read as an accepted request if its members are those of a body. -/
theorem read_check_ok_iff {source : Json.Source} {members : List (String × Json)} {r : Request} :
    codec.read source (Json.object members).toOutline = .ok r ∧ r.check = .ok () ↔ IsBody members r := by
  have distinctNames : fields.names.Nodup := by decide
  have tag : ∀ {name} {value : Option UInt16}, (Field.optional name .word16).Takes source members value ↔
      Gives members name number16 value := Field.takes_optional Codec.exact_word16 nofun
  have port : ∀ {name} {value : Option UInt32}, (Field.optional name .word32).Takes source members value ↔
      Gives members name number32 value := Field.takes_optional Codec.exact_word32 nofun
  have mac : ∀ {name} {value : Option String}, (Field.optional name .string).Takes source members value ↔
      Gives members name .string value := Field.takes_optional Codec.exact_string nofun
  have ports : ∀ {name} {value : Option (List UInt32)},
      (Field.optional name (.list .word32)).Takes source members value ↔
        Gives members name (fun ports => .array (ports.map number32)) value := Field.takes_optional exact_ports nofun
  rw [codec_read_ok_iff, Json.Fields.read_object_ok_iff distinctNames, check_ok_iff_ranges]
  constructor
  · rintro ⟨⟨distinct, known, dpid, priority, inPort, outPort, outPorts, ethSrc, ethDst, vlanVid, mplsLabel, pushVlan,
      setVlan, popVlan, pushMpls, popMpls, _⟩, vlanIds, mplsLabels⟩
    exact ⟨distinct, known, (Field.takes_required Codec.exact_word64).mp dpid, tag.mp priority, port.mp inPort,
      port.mp outPort, ports.mp outPorts, mac.mp ethSrc, mac.mp ethDst, tag.mp vlanVid, port.mp mplsLabel,
      tag.mp pushVlan, tag.mp setVlan, Field.takes_switch.mp popVlan, port.mp pushMpls, Field.takes_switch.mp popMpls,
      vlanIds, mplsLabels⟩
  · intro body
    refine ⟨⟨body.distinct, body.known, ?_⟩, body.vlanIds, body.mplsLabels⟩
    exact ⟨(Field.takes_required Codec.exact_word64).mpr body.dpid, tag.mpr body.priority, port.mpr body.inPort,
      port.mpr body.outPort, ports.mpr body.outPorts, mac.mpr body.ethSrc, mac.mpr body.ethDst, tag.mpr body.vlanVid,
      port.mpr body.mplsLabel, tag.mpr body.pushVlan, tag.mpr body.setVlan, Field.takes_switch.mpr body.popVlan,
      port.mpr body.pushMpls, Field.takes_switch.mpr body.popMpls, trivial⟩

/-- A text is accepted for a tree that it denotes. -/
theorem ofText_ok_iff {text : List Char} {r : Request} : ofText text = .ok r ↔
    ∃ j, Denotes (tokensOf j) text ∧ codec.read .text j.toOutline = .ok r ∧ r.check = .ok () := by
  have accepted : ofText text = .ok r ↔ Json.decode codec text = .ok r ∧ r.check = .ok () := by
    simp only [ofText, bind_eq_ok_iff, mapError_eq_ok_iff, pure_eq_ok, Except.ok.injEq]
    constructor
    · rintro ⟨_, decoded, _, checked, rfl⟩
      exact ⟨decoded, checked⟩
    · rintro ⟨decoded, checked⟩
      exact ⟨r, decoded, (), checked, rfl⟩
  rw [accepted, codec_sound.decode_ok_iff]
  constructor
  · rintro ⟨⟨j, denotes, read⟩, checked⟩
    exact ⟨j, denotes, read, checked⟩
  · rintro ⟨j, denotes, read, checked⟩
    exact ⟨⟨j, denotes, read⟩, checked⟩

/-- A text that denotes an object is accepted if the members of the object are those of a body. -/
theorem ofText_ok_iff_isBody {text : List Char} {members : List (String × Json)}
    (denotes : Denotes (tokensOf (.object members)) text) {r : Request} : ofText text = .ok r ↔ IsBody members r := by
  rw [ofText_ok_iff, ← read_check_ok_iff]
  constructor
  · rintro ⟨j, other, accepted⟩
    cases Json.denotes_unique denotes other
    exact accepted
  · exact fun accepted => ⟨_, denotes, accepted⟩

/-- A text that opens with a brace is accepted if and only if it denotes an object whose members are those of a body.
    The request is then the one that the members ask for, whatever their order and the blanks between the tokens, and
    no member can be added whose key is unknown or there already. -/
theorem ofText_object {blanks rest : List Char} (blank : ∀ c ∈ blanks, Json.isBlank c = true) :
    (∀ r, ofText (blanks ++ '\x7b' :: rest) = .ok r ↔
      ∃ members, Denotes (tokensOf (.object members)) (blanks ++ '\x7b' :: rest) ∧ IsBody members r) ∧
    ∀ r members, ofText (blanks ++ '\x7b' :: rest) = .ok r →
      Denotes (tokensOf (.object members)) (blanks ++ '\x7b' :: rest) →
      (∀ others text, members.Perm others → Denotes (tokensOf (.object others)) text → ofText text = .ok r) ∧
      ∀ before after key value text, members = before ++ after → (key ∉ keys ∨ key ∈ members.map Prod.fst) →
        Denotes (tokensOf (.object (before ++ (key, value) :: after))) text → ∃ fault, ofText text = .error fault := by
  refine ⟨fun r => ?_, fun r members accepted denotes => ⟨?_, ?_⟩⟩
  · constructor
    · intro accepted
      obtain ⟨j, denotes, read⟩ := ofText_ok_iff.mp accepted
      obtain ⟨members, rfl⟩ := Json.exists_members_of_denotes blank denotes
      exact ⟨members, denotes, read_check_ok_iff.mp read⟩
    · rintro ⟨members, denotes, body⟩
      exact (ofText_ok_iff_isBody denotes).mpr body
  · intro others text same otherwise
    exact (ofText_ok_iff_isBody otherwise).mpr (((ofText_ok_iff_isBody denotes).mp accepted).perm same)
  · rintro before after key value text rfl wrong added
    cases outcome : ofText text with
    | ok other => exact absurd ((ofText_ok_iff_isBody added).mp outcome) (not_isBody value wrong other)
    | error fault => exact ⟨fault, rfl⟩

/-- A body with a blank in front of it, an escape in a key and a VLAN id at the bound is accepted, and refused when the
    key stands in it once more. -/
theorem ofText_object_escaped :
    (∀ c ∈ [' '], Json.isBlank c = true) ∧
    ofText ([' '] ++ '\x7b' :: "\"d\\u0070id\" : 7, \"vlan_vid\":4095\x7d".toList) =
      .ok { forward 7 0 0 0 with priority := none, inPort := none, outPort := none, vlanVid := some 4095 } ∧
    ∃ fault, ofText "\x7b\"d\\u0070id\" : 7, \"vlan_vid\":4095, \"dpid\":8\x7d".toList = .error fault := by
  have blank : ∀ c ∈ [' '], Json.isBlank c = true := by simp [Json.isBlank]
  have denotes : Denotes (tokensOf (.object [("dpid", .natural 7), ("vlan_vid", .natural 4095)]))
      ([' '] ++ '\x7b' :: "\"d\\u0070id\" : 7, \"vlan_vid\":4095\x7d".toList) :=
    Json.denotes_iff.mpr ⟨by decide, Json.allSound_tokensOf _⟩
  have more : Denotes
      (tokensOf (.object ([("dpid", .natural 7), ("vlan_vid", .natural 4095)] ++ [("dpid", .natural 8)])))
      "\x7b\"d\\u0070id\" : 7, \"vlan_vid\":4095, \"dpid\":8\x7d".toList :=
    Json.denotes_iff.mpr ⟨by decide, Json.allSound_tokensOf _⟩
  have body : IsBody [("dpid", .natural 7), ("vlan_vid", .natural 4095)]
      { forward 7 0 0 0 with priority := none, inPort := none, outPort := none, vlanVid := some 4095 } := by
    have member : ("vlan_vid", number16 4095) ∈ [("dpid", .natural 7), ("vlan_vid", .natural 4095)] := by decide
    exact {
      distinct := by decide
      known := by decide
      dpid := by decide
      priority := .missing (by decide)
      inPort := .missing (by decide)
      outPort := .missing (by decide)
      outPorts := .missing (by decide)
      ethSrc := .missing (by decide)
      ethDst := .missing (by decide)
      vlanVid := .value member
      mplsLabel := .missing (by decide)
      pushVlan := .missing (by decide)
      setVlan := .missing (by decide)
      popVlan := .missing (by decide)
      pushMpls := .missing (by decide)
      popMpls := .missing (by decide)
      vlanIds := by simp [forward]
      mplsLabels := by simp [forward] }
  have accepted := ((ofText_object blank).1 _).mpr ⟨_, denotes, body⟩
  have added := ((ofText_object blank).2 _ _ accepted denotes).2
  exact ⟨blank, accepted, added _ [] "dpid" (.natural 8) _ (List.append_nil _).symm (.inr (by decide)) more⟩

end PatchPanel.Request
