import PatchPanel.Address.Ip
import PatchPanel.Address.Mac
import PatchPanel.Proofs.Resolution
import PatchPanel.Proofs.Text.Numerals
import PatchPanel.Proofs.Text.Splitting

/-!
Which texts are addresses. The grammars say how an address is put together and know nothing of how a text is cut:
pieces of some form, joined by a separator. A text is accepted exactly if it is joined of such pieces
(`isMac_iff`, `isIpv4_iff`, `isIpv6_iff`, `isIp_iff`).
-/
namespace PatchPanel.Address
open Numeral Text

/-! ### MAC addresses -/

/-- Six groups of two hexadecimal digits, joined by colons. -/
def IsMacText (text : List Char) : Prop :=
  ∃ groups : List (List Char), groups.length = 6 ∧ (∀ g ∈ groups, g.length = 2 ∧ ∀ c ∈ g, c ∈ hexDigits) ∧
    text = [':'].intercalate groups

theorem isMacGroup_iff {group : List Char} :
    isMacGroup group = true ↔ group.length = 2 ∧ ∀ c ∈ group, c ∈ hexDigits := by
  match group with
  | [] => simp [isMacGroup]
  | [_] => simp [isMacGroup]
  | [a, b] => simp [isMacGroup, isHexDigit_iff]
  | _ :: _ :: _ :: _ => simp [isMacGroup]

theorem isMac_iff {text : String} : isMac text = true ↔ IsMacText text.toList := by
  have free : ∀ groups : List (List Char),
      (groups.length = 6 ∧ ∀ g ∈ groups, g.length = 2 ∧ ∀ c ∈ g, c ∈ hexDigits) →
        groups ≠ [] ∧ ∀ g ∈ groups, ':' ∉ g := by
    rintro groups ⟨six, each⟩
    refine ⟨List.ne_nil_of_length_pos (by omega), fun g member => ?_⟩
    exact not_mem_of_hexDigits (by decide) (each g member).2
  simp only [isMac, Bool.and_eq_true, decide_eq_true_eq, List.all_eq_true, isMacGroup_iff]
  rw [pieces_iff_joined free]
  simp only [IsMacText, and_assoc]

/-! ### IPv4 addresses -/

/-- Four numbers up to 255, written without leading zeros and joined by dots. -/
def IsDottedQuad (text : List Char) : Prop :=
  ∃ numbers : List Nat, numbers.length = 4 ∧ (∀ n ∈ numbers, n ≤ 255) ∧
    text = ['.'].intercalate (numbers.map (Nat.toDigits 10))

theorem isOctet_iff {text : List Char} : isOctet text = true ↔ ∃ n, n ≤ 255 ∧ Nat.toDigits 10 n = text := by
  simp only [isOctet, Bool.and_eq_true, Bool.or_eq_true, decide_eq_true_eq, bne_iff_ne, Option.any_eq_true,
    decimal?_eq_some_iff]
  constructor
  · rintro ⟨⟨-, first⟩, n, ⟨nonempty, digits, rfl⟩, small⟩
    rcases first with other | rfl
    · obtain ⟨c, rest, rfl⟩ := List.exists_cons_of_ne_nil nonempty
      exact ⟨_, by omega, toDigits_ofDigits digits fun zero => other (by rw [zero, List.head?_cons])⟩
    · exact ⟨0, by decide, rfl⟩
  · rintro ⟨n, small, rfl⟩
    have short : (Nat.toDigits 10 n).length ≤ 3 := (Nat.length_toDigits_le_iff (by decide) (by decide)).mpr (by omega)
    refine ⟨⟨short, ?_⟩, n, ⟨Nat.toDigits_ne_nil, fun c => isDigit_of_mem_toDigits, ofDigits_toDigits n⟩, by omega⟩
    rcases Nat.eq_zero_or_pos n with rfl | positive
    · exact .inr rfl
    · obtain ⟨d, ds, written, nonzero⟩ := toDigits_head positive
      rw [written, List.head?_cons]
      exact .inl fun zero => nonzero (Option.some.inj zero)

/-- Pieces that are numbers up to 255, one by one and together. -/
theorem all_isOctet_iff {octets : List (List Char)} :
    octets.all isOctet = true ↔
      ∃ numbers : List Nat, (∀ n ∈ numbers, n ≤ 255) ∧ numbers.map (Nat.toDigits 10) = octets := by
  simp only [List.all_eq_true, isOctet_iff]
  constructor
  · intro each
    induction octets with
    | nil => exact ⟨[], by simp, rfl⟩
    | cons octet octets ih =>
      obtain ⟨⟨n, small, written⟩, rest⟩ := List.forall_mem_cons.mp each
      obtain ⟨numbers, bounded, same⟩ := ih rest
      exact ⟨n :: numbers, List.forall_mem_cons.mpr ⟨small, bounded⟩, by rw [List.map_cons, written, same]⟩
  · rintro ⟨numbers, bounded, rfl⟩ octet member
    obtain ⟨n, inside, written⟩ := List.mem_map.mp member
    exact ⟨n, bounded n inside, written⟩

theorem isIpv4_iff {text : List Char} : isIpv4 text = true ↔ IsDottedQuad text := by
  have free : ∀ octets : List (List Char), (octets.length = 4 ∧ octets.all isOctet = true) →
      octets ≠ [] ∧ ∀ octet ∈ octets, '.' ∉ octet := by
    rintro octets ⟨four, each⟩
    refine ⟨List.ne_nil_of_length_pos (by omega), fun octet member => ?_⟩
    obtain ⟨n, -, rfl⟩ := isOctet_iff.mp (List.all_eq_true.mp each octet member)
    exact not_mem_toDigits (by decide) n
  simp only [isIpv4, Bool.and_eq_true, decide_eq_true_eq]
  rw [pieces_iff_joined free]
  simp only [all_isOctet_iff]
  constructor
  · rintro ⟨octets, ⟨four, numbers, bounded, rfl⟩, joined⟩
    exact ⟨numbers, by rwa [List.length_map] at four, bounded, joined⟩
  · rintro ⟨numbers, four, bounded, joined⟩
    exact ⟨_, ⟨by rwa [List.length_map], numbers, bounded, rfl⟩, joined⟩

/-- A dotted quad has no other characters than digits and dots. -/
theorem IsDottedQuad.not_mem {x : Char} (digit : isDigit x = false) (dot : x ≠ '.') {text : List Char}
    (quad : IsDottedQuad text) : x ∉ text := by
  obtain ⟨numbers, -, -, rfl⟩ := quad
  intro member
  rcases mem_intercalate member with same | ⟨octet, inside, here⟩
  · exact dot same
  · obtain ⟨n, -, rfl⟩ := List.mem_map.mp inside
    exact not_mem_toDigits digit n here

theorem IsDottedQuad.dot_mem {text : List Char} (quad : IsDottedQuad text) : '.' ∈ text := by
  by_contra without
  have four : isIpv4 text = true := isIpv4_iff.mpr quad
  have one : pieces '.' text = [text] := pieces_eq_iff.mpr ⟨by simp, by simpa using without, by simp⟩
  simp [isIpv4, one] at four

/-! ### IPv6 addresses -/

/-- One to four hexadecimal digits. -/
def IsGroup (text : List Char) : Prop := 1 ≤ text.length ∧ text.length ≤ 4 ∧ ∀ c ∈ text, c ∈ hexDigits

/-- Pieces that stand for so many groups. Where it is allowed, the last piece may be a dotted quad, which stands for
    two groups. -/
inductive Groups : (quadLast : Bool) → Nat → List (List Char) → Prop where
  | nil {quadLast : Bool} : Groups quadLast 0 []
  | quad {quad : List Char} : IsDottedQuad quad → Groups true 2 [quad]
  | group {quadLast : Bool} {n : Nat} {group : List Char} {rest : List (List Char)} :
    IsGroup group → Groups quadLast n rest → Groups quadLast (n + 1) (group :: rest)

/-- Eight groups joined by colons, or fewer with a double colon among them. No group is empty, so that there is no
    second double colon. -/
inductive IsIpv6Text : List Char → Prop where
  | full {groups : List (List Char)} : Groups true 8 groups → IsIpv6Text ([':'].intercalate groups)
  | short {m n : Nat} {before later : List (List Char)} : Groups false m before → Groups true n later → m + n < 8 →
    IsIpv6Text ([':'].intercalate before ++ ':' :: ':' :: [':'].intercalate later)

theorem isGroup_iff {text : List Char} : isGroup text = true ↔ IsGroup text := by
  simp [isGroup, IsGroup, isHexDigit_iff, and_assoc]

theorem IsDottedQuad.not_isGroup {text : List Char} (quad : IsDottedQuad text) : ¬ IsGroup text :=
  fun group => not_mem_of_hexDigits (by decide) group.2.2 quad.dot_mem

/-- The pieces are filled and have no colons. -/
theorem Groups.filled {quadLast : Bool} {n : Nat} {pieces : List (List Char)} (groups : Groups quadLast n pieces) :
    [] ∉ pieces ∧ ∀ piece ∈ pieces, ':' ∉ piece := by
  induction groups with
  | nil => simp
  | quad quad =>
    have nonempty := List.ne_nil_of_mem quad.dot_mem
    have free := quad.not_mem (x := ':') (by decide) (by decide)
    simpa [nonempty] using free
  | group group _ ih =>
    have nonempty := List.ne_nil_of_length_pos group.1
    have free := not_mem_of_hexDigits (x := ':') (by decide) group.2.2
    simpa [nonempty, free] using ih

theorem Groups.pieces_eq {quadLast : Bool} {n : Nat} {ls : List (List Char)} (groups : Groups quadLast n ls)
    (nonempty : ls ≠ []) : pieces ':' ([':'].intercalate ls) = ls :=
  pieces_eq_iff.mpr ⟨nonempty, groups.filled.2, rfl⟩

/-- There is no double colon between groups. -/
theorem Groups.cutDouble?_eq_none {quadLast : Bool} {n : Nat} {ls : List (List Char)} (groups : Groups quadLast n ls)
    (nonempty : ls ≠ []) : cutDouble? ':' ([':'].intercalate ls) = none := by
  rw [Option.eq_none_iff_forall_ne_some]
  intro parts cut
  have gap := nil_mem_pieces_of_cutDouble? cut
  rw [groups.pieces_eq nonempty] at gap
  exact groups.filled.1 gap

/-- The first double colon is the one behind the groups. -/
theorem Groups.cutDouble?_append {quadLast : Bool} {n : Nat} {ls : List (List Char)} (groups : Groups quadLast n ls)
    (later : List Char) :
    cutDouble? ':' ([':'].intercalate ls ++ ':' :: ':' :: later) = some ([':'].intercalate ls, later) := by
  refine Text.cutDouble?_append ?_ later
  by_cases empty : ls = []
  · subst empty
    exact List.not_mem_nil
  · rw [groups.pieces_eq empty]
    exact fun member => groups.filled.1 (List.mem_of_mem_tail member)

theorem groupCount?_cons (ipv4Last : Bool) (piece : List Char) (rest : List (List Char)) :
    groupCount? ipv4Last (piece :: rest) =
      if isGroup piece then (groupCount? ipv4Last rest).map (· + 1)
      else if ipv4Last ∧ rest = [] ∧ isIpv4 piece then some 2
      else none := by
  cases rest with
  | nil => simp [groupCount?]
  | cons next rest => simp [groupCount?]

/-- As many groups are counted as the pieces stand for. -/
theorem groupCount?_eq_some_iff {quadLast : Bool} {pieces : List (List Char)} {n : Nat} :
    groupCount? quadLast pieces = some n ↔ Groups quadLast n pieces := by
  induction pieces generalizing n with
  | nil =>
    constructor
    · rintro ⟨⟩
      exact .nil
    · rintro ⟨⟩
      rfl
  | cons piece rest ih =>
    rw [groupCount?_cons]
    by_cases group : IsGroup piece
    · rw [if_pos (isGroup_iff.mpr group), Option.map_eq_some_iff]
      constructor
      · rintro ⟨m, counted, rfl⟩
        exact .group group (ih.mp counted)
      · intro groups
        cases groups with
        | quad quad => exact absurd group quad.not_isGroup
        | group _ rest => exact ⟨_, ih.mpr rest, rfl⟩
    · rw [if_neg fun counted => group (isGroup_iff.mp counted)]
      simp only [isIpv4_iff, Option.ite_none_right_eq_some, Option.some.injEq]
      constructor
      · rintro ⟨⟨rfl, rfl, quad⟩, rfl⟩
        exact .quad quad
      · intro groups
        cases groups with
        | quad quad => exact ⟨⟨rfl, rfl, quad⟩, rfl⟩
        | group here => exact absurd here group

theorem groups?_eq_some_iff {quadLast : Bool} {text : List Char} {n : Nat} :
    groups? quadLast text = some n ↔ ∃ ls, Groups quadLast n ls ∧ text = [':'].intercalate ls := by
  rw [groups?]
  by_cases empty : text = []
  · subst empty
    rw [if_pos List.isEmpty_nil]
    constructor
    · rintro ⟨⟩
      exact ⟨[], .nil, rfl⟩
    · rintro ⟨ls, groups, joined⟩
      -- Joined of any pieces, an empty text would have an empty one.
      by_cases alone : ls = []
      · subst alone
        cases groups
        rfl
      · have same := groups.pieces_eq alone
        rw [← joined] at same
        exact absurd (same ▸ List.mem_singleton_self []) groups.filled.1
  · rw [if_neg (by simpa using empty), groupCount?_eq_some_iff]
    constructor
    · intro groups
      exact ⟨pieces ':' text, groups, (pieces_eq_iff.mp rfl).2.2⟩
    · rintro ⟨ls, groups, rfl⟩
      have nonempty : ls ≠ [] := by
        rintro rfl
        exact empty rfl
      rwa [groups.pieces_eq nonempty]

theorem isIpv6_iff {text : List Char} : isIpv6 text = true ↔ IsIpv6Text text := by
  unfold isIpv6
  constructor
  · intro accepted
    split at accepted
    · obtain ⟨ls, groups, rfl⟩ := groups?_eq_some_iff.mp (of_decide_eq_true accepted)
      exact .full groups
    · next head tail cut =>
      split at accepted
      · next m n first second =>
        obtain ⟨before, groups, rfl⟩ := groups?_eq_some_iff.mp first
        obtain ⟨later, others, rfl⟩ := groups?_eq_some_iff.mp second
        have few : m + n ≤ 7 := of_decide_eq_true accepted
        rw [eq_of_cutDouble? cut]
        exact .short groups others (by omega)
      · cases accepted
  · intro address
    cases address with
    | @full ls groups =>
      have nonempty : ls ≠ [] := by
        rintro rfl
        cases groups
      rw [groups.cutDouble?_eq_none nonempty]
      exact decide_eq_true (groups?_eq_some_iff.mpr ⟨_, groups, rfl⟩)
    | short groups others few =>
      rw [groups.cutDouble?_append]
      dsimp only
      rw [groups?_eq_some_iff.mpr ⟨_, groups, rfl⟩, groups?_eq_some_iff.mpr ⟨_, others, rfl⟩]
      exact decide_eq_true (by omega)

/-! ### IP addresses -/

/-- A number up to `limit`, of decimal digits with or without a plus sign before them. -/
def IsLength (limit : Nat) (text : List Char) : Prop :=
  ∃ digits, (text = digits ∨ text = '+' :: digits) ∧ digits ≠ [] ∧ (∀ c ∈ digits, c.isDigit = true) ∧
    Nat.ofDigitChars 10 digits 0 ≤ limit

/-- An address of either family, of so many bits. -/
inductive IsAddress : (bits : Nat) → List Char → Prop where
  | ipv4 {address : List Char} : IsDottedQuad address → IsAddress 32 address
  | ipv6 {address : List Char} : IsIpv6Text address → IsAddress 128 address

/-- An address, or one with the length of a network prefix behind the first slash, which is at most the number of bits
    of the address. -/
inductive IsIpText : List Char → Prop where
  | host {bits : Nat} {address : List Char} : '/' ∉ address → IsAddress bits address → IsIpText address
  | network {bits : Nat} {address length : List Char} : '/' ∉ address → IsAddress bits address →
    IsLength bits length → IsIpText (address ++ '/' :: length)

theorem isPrefixLength_iff {limit : Nat} (small : limit < 256) {text : List Char} :
    isPrefixLength limit text = true ↔ IsLength limit text := by
  simp only [isPrefixLength, byte?, Option.any_eq_true, Option.filter_eq_some_iff, decimal?_eq_some_iff,
    decide_eq_true_eq]
  have unsigned {digits : List Char} (every : ∀ c ∈ digits, isDigit c = true) : digits.head? ≠ some '+' := by
    intro first
    have plus := every '+' (List.mem_of_mem_head? first)
    cases plus
  constructor
  · rintro ⟨n, ⟨⟨nonempty, every, rfl⟩, -⟩, bounded⟩
    rw [ofDigits_eq every] at bounded
    refine ⟨dropPlus text, (dropPlus_eq_iff (unsigned every)).mp rfl, nonempty, fun c member => ?_, bounded⟩
    rw [← isDigit_eq]
    exact every c member
  · rintro ⟨digits, signed, nonempty, every, bounded⟩
    have decimal : ∀ c ∈ digits, isDigit c = true := by simpa only [isDigit_eq] using every
    rw [(dropPlus_eq_iff (unsigned decimal)).mpr signed]
    rw [← ofDigits_eq decimal] at bounded
    exact ⟨_, ⟨⟨nonempty, decimal, rfl⟩, by omega⟩, bounded⟩

theorem isIp_iff {text : String} : isIp text = true ↔ IsIpText text.toList := by
  unfold isIp
  generalize text.toList = cs
  constructor
  · intro accepted
    split at accepted
    · next whole =>
      have free := cut?_eq_none_iff.mp whole
      rcases Bool.or_eq_true_iff.mp accepted with four | six
      · exact .host free (.ipv4 (isIpv4_iff.mp four))
      · exact .host free (.ipv6 (isIpv6_iff.mp six))
    · next address length cut =>
      obtain ⟨rfl, free⟩ := cut?_eq_some_iff.mp cut
      simp only [Bool.or_eq_true, Bool.and_eq_true] at accepted
      rcases accepted with ⟨four, bounded⟩ | ⟨six, bounded⟩
      · exact .network free (.ipv4 (isIpv4_iff.mp four)) ((isPrefixLength_iff (by decide)).mp bounded)
      · exact .network free (.ipv6 (isIpv6_iff.mp six)) ((isPrefixLength_iff (by decide)).mp bounded)
  · intro form
    cases form with
    | host free address =>
      rw [cut?_eq_none_iff.mpr free]
      cases address with
      | ipv4 quad => simp [isIpv4_iff.mpr quad]
      | ipv6 groups => simp [isIpv6_iff.mpr groups]
    | network free address length =>
      rw [cut?_eq_some_iff.mpr ⟨rfl, free⟩]
      cases address with
      | ipv4 quad => simp [isIpv4_iff.mpr quad, (isPrefixLength_iff (by decide)).mpr length]
      | ipv6 groups => simp [isIpv6_iff.mpr groups, (isPrefixLength_iff (by decide)).mpr length]

/-! ### Addresses of test host ports -/

/-- The texts accepted as MAC and IP addresses are those of their grammars, and the data of a test host port is accepted
    exactly if its MAC address, its IP address and its gateway, if it has one, are such texts. -/
theorem addresses_accepted :
    (∀ text, isMac text = true ↔ IsMacText text.toList) ∧ (∀ text, isIp text = true ↔ IsIpText text.toList) ∧
      ∀ d : TestHostPortEntry, (∃ p, d.check = .ok p) ↔
        IsMacText d.mac.toList ∧ IsIpText d.ip.toList ∧ ∀ g, d.gateway = some g → IsIpText g.toList := by
  refine ⟨fun text => isMac_iff, fun text => isIp_iff, fun d => ?_⟩
  simp only [TestHostPortEntry.check_ok_iff, exists_and_left, exists_eq, and_true, isMac_iff, isIp_iff]

/-- A double colon before a dotted quad and a prefix of digits behind a plus sign are accepted; a double colon that
    stands for no group and a line feed behind a MAC address are not. -/
theorem addresses_accepted_mixed :
    (∃ p, (TestHostPortEntry.mk "0A:00:00:00:00:0f" "1:2:3:4:5::1.2.3.4/+096" (some "::")).check = .ok p) ∧
      IsMacText "0A:00:00:00:00:0f".toList ∧ IsIpText "1:2:3:4:5::1.2.3.4/+096".toList ∧ IsIpText "::".toList ∧
      ¬ IsIpText "1:2:3:4:5:6::1.2.3.4".toList ∧ ¬ IsMacText "0A:00:00:00:00:0f\n".toList := by
  obtain ⟨mac, ip, data⟩ := addresses_accepted
  have macForm := (mac "0A:00:00:00:00:0f").mp (by decide)
  have ipForm := (ip "1:2:3:4:5::1.2.3.4/+096").mp (by decide)
  have gatewayForm := (ip "::").mp (by decide)
  have overfull : ¬ IsIpText "1:2:3:4:5:6::1.2.3.4".toList := fun form => absurd ((ip _).mpr form) (by decide)
  have longer : ¬ IsMacText "0A:00:00:00:00:0f\n".toList := fun form => absurd ((mac _).mpr form) (by decide)
  refine ⟨(data _).mpr ⟨macForm, ipForm, fun g same => ?_⟩, macForm, ipForm, gatewayForm, overfull, longer⟩
  obtain rfl := Option.some.inj same
  exact gatewayForm

end PatchPanel.Address
