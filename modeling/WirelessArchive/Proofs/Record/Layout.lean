import WirelessArchive.Proofs.Profile.Selection
import WirelessArchive.Proofs.Record.Members

/-!
# The layout of records

The record of a profile is an object whose keys stand in a fixed order, each at most once.  Which of
them are there is told by the profile alone, and so is what stands under them (`Record.Layout`): a
member that says nothing about the profile is left out rather than filled with a blank.

The layout speaks of the written object and not of the wire form.  It says of every key which
values stand under it, so that a key with none is absent.
-/

namespace WirelessArchive

/-- The flags of a set stand under a key as a list of names, in the order in which the flags are
declared; an empty set is left out. -/
structure ListsFlags {α : Type} [Flag α] (members : List (String × Json)) (key : String)
    (s : FlagSet α) : Prop where
  given : (∃ v, (key, v) ∈ members) ↔ ∃ a, a ∈ s.members
  listed : ∀ v, (key, v) ∈ members → ∃ flags : List α, v = .strings (flags.map Flag.name) ∧
    (∀ a, a ∈ flags ↔ a ∈ s.members) ∧ (flags.map Flag.all.idxOf).Pairwise (· < ·)

/-- The members of the addressing part of a record. -/
structure AddressingRecord.Layout (c : IpConfig) (members : List (String × Json)) : Prop where
  distinct : (members.map Prod.fst).Nodup
  ordered : (members.map Prod.fst).Sublist
    ["assignment", "linkAddress", "gateway", "dnsServers", "proxySettings", "proxyHost",
      "proxyPort", "proxyExclusionList", "proxyPacUrl"]
  assignment : ∀ v, ("assignment", v) ∈ members ↔
    c.assignment = .dhcp ∧ v = .string "DHCP" ∨
      (∃ s, c.assignment = .static s) ∧ v = .string "STATIC"
  linkAddress : ∀ v, ("linkAddress", v) ∈ members ↔
    ∃ s l, c.assignment = .static s ∧ s.linkAddress = some l ∧ v = .string l.text
  gateway : ∀ v, ("gateway", v) ∈ members ↔
    ∃ s a, c.assignment = .static s ∧ s.gateway = some a ∧ v = .string a.text
  dnsServers : ∀ v, ("dnsServers", v) ∈ members ↔
    ∃ s, c.assignment = .static s ∧ s.dnsServers ≠ [] ∧
      v = .strings (s.dnsServers.map Address.text)
  proxySettings : ∀ v, ("proxySettings", v) ∈ members ↔
    c.proxy = .direct ∧ v = .string "NONE" ∨
      (∃ host port exclusions, c.proxy = .fixed host port exclusions) ∧ v = .string "STATIC" ∨
      (∃ url, c.proxy = .script url) ∧ v = .string "PAC"
  proxyHost : ∀ v, ("proxyHost", v) ∈ members ↔
    ∃ host port exclusions, c.proxy = .fixed host port exclusions ∧ v = .string host
  proxyPort : ∀ v, ("proxyPort", v) ∈ members ↔
    ∃ host port exclusions, c.proxy = .fixed host port exclusions ∧ v = .word16 port
  proxyExclusionList : ∀ v, ("proxyExclusionList", v) ∈ members ↔
    ∃ host port exclusions, c.proxy = .fixed host port exclusions ∧ v = .string exclusions
  proxyPacUrl : ∀ v, ("proxyPacUrl", v) ∈ members ↔
    ∃ url, c.proxy = .script url ∧ v = .string url

/-- The members of the record of a profile. -/
structure Record.Layout (p : Profile) (members : List (String × Json)) : Prop where
  distinct : (members.map Prod.fst).Nodup
  ordered : (members.map Prod.fst).Sublist
    ["ssid", "bssid", "security", "preSharedKey", "wepKeys", "wepTxKeyIndex", "hiddenSsid",
      "allowedKeyManagement", "allowedProtocols", "allowedAuthAlgorithms", "shared", "creatorUid",
      "ipConfiguration"]
  ssid : ∀ v, ("ssid", v) ∈ members ↔ v = .string p.ssid
  bssid : ∀ v, ("bssid", v) ∈ members ↔ ∃ s, p.bssid = some s ∧ v = .string s
  security : ∀ v, ("security", v) ∈ members ↔ v = .string p.security.wireName
  preSharedKey : ∀ v, ("preSharedKey", v) ∈ members ↔
    p.security = .psk ∧ ∃ key, p.preSharedKey = some key ∧ v = .string key
  wepKeys : ∀ v, ("wepKeys", v) ∈ members ↔
    p.security = .wep ∧ (∃ key, some key ∈ p.wepKeys.toList) ∧
      v = .array [.ofString? p.wepKeys.slot0, .ofString? p.wepKeys.slot1,
        .ofString? p.wepKeys.slot2, .ofString? p.wepKeys.slot3]
  wepTxKeyIndex : ∀ v, ("wepTxKeyIndex", v) ∈ members ↔
    p.security = .wep ∧ v = .octet p.wepTxKeyIndex
  hiddenSsid : ∀ v, ("hiddenSsid", v) ∈ members ↔ v = .bool p.hiddenSsid
  keyManagement : ListsFlags members "allowedKeyManagement" p.keyManagement
  protocols : ListsFlags members "allowedProtocols" p.protocols
  authAlgorithms : ListsFlags members "allowedAuthAlgorithms" p.authAlgorithms
  shared : ∀ v, ("shared", v) ∈ members ↔ v = .bool p.shared
  creatorUid : ∀ v, ("creatorUid", v) ∈ members ↔ v = .word32 p.creatorUid
  ipConfiguration : ∃ addressing, AddressingRecord.Layout p.ipConfig addressing ∧
    ∀ v, ("ipConfiguration", v) ∈ members ↔ v = .object addressing

/-! ## Flags -/

/-- The members of a set come in the order of their declaration. -/
theorem FlagSet.pairwise_idxOf {α : Type} [Flag α] (s : FlagSet α) :
    (s.members.map Flag.all.idxOf).Pairwise (· < ·) := by
  refine List.pairwise_map.2 (List.Pairwise.sublist s.sublist_all ?_)
  rw [List.pairwise_iff_getElem]
  intro i j hi hj hij
  rwa [Flag.nodup_all.idxOf_getElem, Flag.nodup_all.idxOf_getElem]

/-- What `names?` writes for the names of a set is such a list. -/
theorem listsFlags_of_names? {α : Type} [Flag α] {members : List (String × Json)} {key : String}
    {s : FlagSet α} (h : ∀ v, (key, v) ∈ members ↔ Record.names? s.names = some v) :
    ListsFlags members key s where
  given := by
    simp only [h, Record.names?, FlagSet.names, List.map_eq_nil_iff]
    by_cases hnil : s.members = []
    · simp [hnil]
    · simp [hnil, List.exists_mem_of_ne_nil]
  listed v hv := by
    obtain ⟨-, hv⟩ := Option.ite_none_left_eq_some.1 ((h v).1 hv)
    exact ⟨s.members, (Option.some.inj hv).symm, fun _ => Iff.rfl, s.pairwise_idxOf⟩

/-! ## Values -/

theorem given_some {a v : Json} : some a = some v ↔ v = a := by
  rw [Option.some.injEq, eq_comm]

theorem given_map {α : Type} {x : Option α} {write : α → Json} {v : Json} :
    x.map write = some v ↔ ∃ a, x = some a ∧ v = write a := by
  simp only [Option.map_eq_some_iff, eq_comm]

/-! ## Records -/

theorem AddressingRecord.layout_ofIpConfig (c : IpConfig) :
    ∃ members, (ofIpConfig c).toJson = .object members ∧ Layout c members := by
  refine ⟨_, rfl, ?_⟩
  have hordered := Json.Schema.keys_written_sublist schema (ofIpConfig c).member?
  have hmem : ∀ m v, (Member.key m, v) ∈ schema.declared.filterMap
      (fun m => ((ofIpConfig c).member? m).map (m.key, ·)) ↔ (ofIpConfig c).member? m = some v :=
    fun m v => Json.Schema.mem_written_iff fields
  obtain ⟨assignment, proxy⟩ := c
  constructor
  case distinct => exact List.Nodup.sublist hordered (by decide)
  case ordered => exact hordered
  case assignment =>
    intro v
    refine (hmem .assignment v).trans (given_some.trans ?_)
    cases assignment <;> cases proxy <;> simp [ofIpConfig, AssignmentMode.wireName]
  case linkAddress =>
    intro v
    refine (hmem .linkAddress v).trans (given_map.trans ?_)
    cases assignment <;> cases proxy <;> simp [ofIpConfig]
  case gateway =>
    intro v
    refine (hmem .gateway v).trans (given_map.trans ?_)
    cases assignment <;> cases proxy <;> simp [ofIpConfig]
  case dnsServers =>
    intro v
    refine (hmem .dnsServers v).trans (Option.ite_none_left_eq_some.trans ?_)
    rw [given_some]
    cases assignment <;> cases proxy <;> simp [ofIpConfig]
  case proxySettings =>
    intro v
    refine (hmem .proxySettings v).trans (given_some.trans ?_)
    cases assignment <;> cases proxy <;> simp [ofIpConfig, ProxyMode.wireName]
  case proxyHost =>
    intro v
    refine (hmem .proxyHost v).trans (given_map.trans ?_)
    cases assignment <;> cases proxy <;> simp [ofIpConfig, and_assoc]
  case proxyPort =>
    intro v
    refine (hmem .proxyPort v).trans (given_map.trans ?_)
    cases assignment <;> cases proxy <;> simp [ofIpConfig, and_assoc]
  case proxyExclusionList =>
    intro v
    refine (hmem .proxyExclusionList v).trans (given_map.trans ?_)
    cases assignment <;> cases proxy <;> simp [ofIpConfig, and_assoc]
  case proxyPacUrl =>
    intro v
    refine (hmem .proxyPacUrl v).trans (given_map.trans ?_)
    cases assignment <;> cases proxy <;> simp [ofIpConfig]

/-- The record of a profile has the layout that the profile tells. -/
theorem Record.layout_ofProfile (p : Profile) :
    ∃ members, (ofProfile p).toJson = .object members ∧ Layout p members := by
  refine ⟨_, rfl, ?_⟩
  have hordered := Json.Schema.keys_written_sublist schema (ofProfile p).member?
  have hmem : ∀ m v, (Member.key m, v) ∈ schema.declared.filterMap
      (fun m => ((ofProfile p).member? m).map (m.key, ·)) ↔ (ofProfile p).member? m = some v :=
    fun m v => Json.Schema.mem_written_iff fields
  constructor
  case distinct => exact List.Nodup.sublist hordered (by decide)
  case ordered => exact hordered
  case ssid => exact fun v => (hmem .ssid v).trans given_some
  case bssid => exact fun v => (hmem .bssid v).trans given_map
  case security => exact fun v => (hmem .security v).trans given_some
  case preSharedKey =>
    intro v
    refine (hmem .preSharedKey v).trans (given_map.trans ?_)
    by_cases hpsk : p.security = .psk <;> simp [ofProfile, hpsk]
  case wepKeys =>
    intro v
    refine (hmem .wepKeys v).trans (given_map.trans ?_)
    rw [← and_assoc, ← p.wepKeys.anyFilled_iff]
    by_cases h : p.security = .wep ∧ p.wepKeys.anyFilled = true
    · simp [ofProfile, h, WepKeys.toList]
    · simp [ofProfile, h]
  case wepTxKeyIndex =>
    intro v
    refine (hmem .wepTxKeyIndex v).trans (given_map.trans ?_)
    by_cases hwep : p.security = .wep <;> simp [ofProfile, hwep]
  case hiddenSsid => exact fun v => (hmem .hiddenSsid v).trans given_some
  case keyManagement => exact listsFlags_of_names? (hmem .keyManagement)
  case protocols => exact listsFlags_of_names? (hmem .protocols)
  case authAlgorithms => exact listsFlags_of_names? (hmem .authAlgorithms)
  case shared => exact fun v => (hmem .shared v).trans given_some
  case creatorUid => exact fun v => (hmem .creatorUid v).trans given_some
  case ipConfiguration =>
    obtain ⟨addressing, htext, hlayout⟩ := AddressingRecord.layout_ofIpConfig p.ipConfig
    have hwritten : (ofProfile p).member? .ipConfiguration = some (.object addressing) :=
      congrArg some htext
    exact ⟨addressing, hlayout, fun v => (hmem .ipConfiguration v).trans (hwritten ▸ given_some)⟩

end WirelessArchive
