import WirelessArchive.Proofs.Record.Layout
import WirelessArchive.Proofs.Record.Policy
import WirelessArchive.Proofs.Record.Profile

/-!
# The grammar of records

When the members of an object make a record that denotes a profile (`IsRecord`), and which profile
it denotes (`Describes`).  Each member has a type of its own and may be absent, but for the network
name and the security type; only a WEP network has a condition on several members together.
Credentials of another security type have to be of their type too, and have no part in the profile.

The security type is given by its name.  An object in place of the name is another notation for it,
of which nothing is said here.
-/

namespace WirelessArchive

open Json (Denotes IsText IsTruth IsOctet IsWord32 IsName IsList OrNull OrAbsent May NoObject)

theorem Flag.parse?_eq_some_iff {α : Type} [Flag α] {s : String} {a : α} :
    parse? s = some a ↔ s = name a := by
  constructor
  · intro h
    have hname := List.find?_some (p := fun b => name b == s) h
    exact (eq_of_beq hname).symm
  · rintro rfl
    exact parse?_name a

/-! ## Key slots -/

namespace WepKeys

/-- Up to four keys fill the slots from the front. -/
theorem toList_ofList {keys : List (Option String)} (h : keys.length ≤ 4) :
    (ofList keys).toList = keys ++ List.replicate (4 - keys.length) none := by
  match keys with
  | [] => rfl
  | [_] => rfl
  | [_, _] => rfl
  | [_, _, _] => rfl
  | [_, _, _, _] => rfl
  | _ :: _ :: _ :: _ :: _ :: rest =>
    simp only [List.length_cons] at h
    omega

theorem anyFilled_ofList_iff {keys : List (Option String)} (h : keys.length ≤ 4) :
    (ofList keys).anyFilled = true ↔ ∃ key, some key ∈ keys := by
  simp [anyFilled_iff, toList_ofList h]

theorem isFilled_ofList_iff {keys : List (Option String)} (h : keys.length ≤ 4) {slot : Nat} :
    (ofList keys).isFilled slot = true ↔ ∃ key, keys[slot]? = some (some key) := by
  rw [isFilled, toList_ofList h, Option.isSome_iff_exists]
  simp only [Option.join_eq_some_iff]
  by_cases hslot : slot < keys.length
  · rw [List.getElem?_append_left hslot]
  · rw [List.getElem?_append_right (Nat.not_lt.1 hslot), List.getElem?_eq_none (Nat.not_lt.1 hslot)]
    simp [List.getElem?_replicate]

end WepKeys

namespace Record

/-! ## The grammar -/

/-- The list of keys that the members of an object spell; there is none without the member. -/
def SpellsKeys (members : List (String × Json)) (keys : List (Option String)) : Prop :=
  ∃ keys?, OrAbsent (OrNull (IsList (OrNull IsText))) none (Json.member? members "wepKeys") keys? ∧
    keys = keys?.getD []

/-- The number of a slot that the members of an object spell; it is 0 without the member. -/
def SpellsSlot (members : List (String × Json)) (slot : UInt8) : Prop :=
  ∃ slot?, OrAbsent (OrNull IsOctet) none (Json.member? members "wepTxKeyIndex") slot? ∧
    slot = slot?.getD 0

/-- Some of the keys are given only if the one of the slot is. -/
def Transmits (keys : List (Option String)) (slot : UInt8) : Prop :=
  (∃ key, some key ∈ keys) → ∃ key, keys[slot.toNat]? = some (some key)

/-- The members of an object make a record of a valid profile. -/
structure IsRecord (members : List (String × Json)) : Prop where
  ssid : ∃ s, Json.member? members "ssid" = some (.string s) ∧
    ∃ c ∈ s.toList, Text.isBlank c = false
  security : ∃ name ∈ ["NONE", "WEP", "PSK", "EAP"],
    Json.member? members "security" = some (.string name)
  bssid : May (OrNull IsText) (Json.member? members "bssid")
  preSharedKey : May (OrNull IsText) (Json.member? members "preSharedKey")
  wepKeys : May (OrNull (IsList (OrNull IsText))) (Json.member? members "wepKeys")
  wepTxKeyIndex : May (OrNull IsOctet) (Json.member? members "wepTxKeyIndex")
  hiddenSsid : May IsTruth (Json.member? members "hiddenSsid")
  keyManagement : May (IsList IsText) (Json.member? members "allowedKeyManagement")
  protocols : May (IsList IsText) (Json.member? members "allowedProtocols")
  authAlgorithms : May (IsList IsText) (Json.member? members "allowedAuthAlgorithms")
  shared : May IsTruth (Json.member? members "shared")
  creatorUid : May IsWord32 (Json.member? members "creatorUid")
  ipConfiguration : May (OrNull fun v c => AddressingRecord.decode v = .ok c)
    (Json.member? members "ipConfiguration")
  wep : Json.member? members "security" = some (.string "WEP") → ∀ keys slot,
    SpellsKeys members keys → SpellsSlot members slot →
      keys.length ≤ 4 ∧ slot.toNat ≤ 3 ∧ Transmits keys slot

/-- A set holds exactly the flags whose names stand in a list; a name that is no flag's adds
none. -/
def SpellsFlags {α : Type} [Flag α] (x : Option Json) (flags : FlagSet α) : Prop :=
  ∃ names, OrAbsent (IsList IsText) [] x names ∧
    ∀ flag, flag ∈ flags.members ↔ Flag.name flag ∈ names

/-- The profile has what the members of an object spell, and nothing else. -/
structure Describes (members : List (String × Json)) (p : Profile) : Prop where
  ssid : Json.member? members "ssid" = some (.string p.ssid)
  security : Json.member? members "security" = some (.string p.security.wireName)
  bssid : OrAbsent (OrNull IsText) none (Json.member? members "bssid") p.bssid
  preSharedKey : if p.security = .psk then
    OrAbsent (OrNull IsText) none (Json.member? members "preSharedKey") p.preSharedKey
    else p.preSharedKey = none
  /-- The keys in their order, and empty slots behind them. -/
  wepKeys : if p.security = .wep then
    ∃ keys, SpellsKeys members keys ∧
      p.wepKeys.toList = keys ++ List.replicate (4 - keys.length) none
    else p.wepKeys = {}
  wepTxKeyIndex : if p.security = .wep then SpellsSlot members p.wepTxKeyIndex
    else p.wepTxKeyIndex = 0
  hiddenSsid : OrAbsent IsTruth false (Json.member? members "hiddenSsid") p.hiddenSsid
  keyManagement : SpellsFlags (Json.member? members "allowedKeyManagement") p.keyManagement
  protocols : SpellsFlags (Json.member? members "allowedProtocols") p.protocols
  authAlgorithms : SpellsFlags (Json.member? members "allowedAuthAlgorithms") p.authAlgorithms
  shared : OrAbsent IsTruth false (Json.member? members "shared") p.shared
  creatorUid : OrAbsent IsWord32 0 (Json.member? members "creatorUid") p.creatorUid
  ipConfig : ∃ c?, OrAbsent (OrNull fun v c => AddressingRecord.decode v = .ok c) none
    (Json.member? members "ipConfiguration") c? ∧ p.ipConfig = c?.getD {}
  noDomain : p.fqdn = none
  noProviderName : p.providerName = none
  notEphemeral : p.ephemeral = false

/-! ## What the members spell -/

theorem securityName_injective (a b : Security) (h : a.wireName = b.wireName) : a = b := by
  cases a <;> cases b <;> first | rfl | exact absurd h (by decide)

/-- The record has what the members of an object spell. -/
structure SpelledBy (members : List (String × Json)) (r : Record) : Prop where
  ssid : Json.member? members "ssid" = some (.string r.ssid)
  bssid : OrAbsent (OrNull IsText) none (Json.member? members "bssid") r.bssid
  security : Json.member? members "security" = some (.string r.security.wireName)
  preSharedKey : OrAbsent (OrNull IsText) none (Json.member? members "preSharedKey")
    r.preSharedKey
  wepKeys : OrAbsent (OrNull (IsList (OrNull IsText))) none (Json.member? members "wepKeys")
    r.wepKeys
  wepTxKeyIndex : OrAbsent (OrNull IsOctet) none (Json.member? members "wepTxKeyIndex")
    r.wepTxKeyIndex
  hiddenSsid : OrAbsent IsTruth false (Json.member? members "hiddenSsid") r.hiddenSsid
  keyManagement : OrAbsent (IsList IsText) [] (Json.member? members "allowedKeyManagement")
    r.keyManagement
  protocols : OrAbsent (IsList IsText) [] (Json.member? members "allowedProtocols") r.protocols
  authAlgorithms : OrAbsent (IsList IsText) [] (Json.member? members "allowedAuthAlgorithms")
    r.authAlgorithms
  shared : OrAbsent IsTruth false (Json.member? members "shared") r.shared
  creatorUid : OrAbsent IsWord32 0 (Json.member? members "creatorUid") r.creatorUid
  ipConfiguration : OrAbsent (OrNull fun v a => AddressingRecord.ofJson v = .ok a) none
    (Json.member? members "ipConfiguration") r.ipConfiguration

theorem reads_addressing? : Json.Reads (Json.asOption AddressingRecord.ofJson)
    (OrNull fun v a => AddressingRecord.ofJson v = .ok a) :=
  Json.Reads.orNull (fun _ _ => Iff.rfl) fun _ h => by cases h

/-- An object is read as the record that has what its members spell. -/
theorem ofJson_object_iff {members : List (String × Json)}
    (hsecurity : NoObject (Json.member? members "security")) {r : Record} :
    ofJson (.object members) = .ok r ↔ SpelledBy members r := by
  have security : ∀ a, Denotes (Json.asVariant Security.table) .unsecured
      (Json.member? members "security") a ↔ OrAbsent (IsName Security.wireName) .unsecured
        (Json.member? members "security") a := fun a =>
    Json.denotes_name_iff securityName_injective (by intro a; cases a <;> decide) hsecurity
  rw [ofJson, Json.Schema.read_object_iff fields]
  constructor
  · rintro ⟨h, hmandatory⟩
    constructor
    case ssid =>
      obtain ⟨v, hv, rfl⟩ := (Json.reads_text.denotes_iff.1 (h .ssid)).of_isSome
        (hmandatory .ssid (by decide))
      exact hv
    case security =>
      obtain ⟨v, hv, rfl⟩ := ((security _).1 (h .security)).of_isSome
        (hmandatory .security (by decide))
      exact hv
    case bssid => exact Json.reads_text?.denotes_iff.1 (h .bssid)
    case preSharedKey => exact Json.reads_text?.denotes_iff.1 (h .preSharedKey)
    case wepKeys => exact Json.reads_keys?.denotes_iff.1 (h .wepKeys)
    case wepTxKeyIndex => exact Json.reads_octet?.denotes_iff.1 (h .wepTxKeyIndex)
    case hiddenSsid => exact Json.reads_truth.denotes_iff.1 (h .hiddenSsid)
    case keyManagement => exact Json.reads_text.list.denotes_iff.1 (h .keyManagement)
    case protocols => exact Json.reads_text.list.denotes_iff.1 (h .protocols)
    case authAlgorithms => exact Json.reads_text.list.denotes_iff.1 (h .authAlgorithms)
    case shared => exact Json.reads_truth.denotes_iff.1 (h .shared)
    case creatorUid => exact Json.reads_word32.denotes_iff.1 (h .creatorUid)
    case ipConfiguration => exact reads_addressing?.denotes_iff.1 (h .ipConfiguration)
  · intro h
    constructor
    · intro m
      cases m with
      | ssid => exact Json.reads_text.denotes_iff.2 (h.ssid ▸ .given rfl)
      | bssid => exact Json.reads_text?.denotes_iff.2 h.bssid
      | security => exact (security _).2 (h.security ▸ .given rfl)
      | preSharedKey => exact Json.reads_text?.denotes_iff.2 h.preSharedKey
      | wepKeys => exact Json.reads_keys?.denotes_iff.2 h.wepKeys
      | wepTxKeyIndex => exact Json.reads_octet?.denotes_iff.2 h.wepTxKeyIndex
      | hiddenSsid => exact Json.reads_truth.denotes_iff.2 h.hiddenSsid
      | keyManagement => exact Json.reads_text.list.denotes_iff.2 h.keyManagement
      | protocols => exact Json.reads_text.list.denotes_iff.2 h.protocols
      | authAlgorithms => exact Json.reads_text.list.denotes_iff.2 h.authAlgorithms
      | shared => exact Json.reads_truth.denotes_iff.2 h.shared
      | creatorUid => exact Json.reads_word32.denotes_iff.2 h.creatorUid
      | ipConfiguration => exact reads_addressing?.denotes_iff.2 h.ipConfiguration
    · intro m hm
      obtain rfl | rfl : m = .ssid ∨ m = .security := by simpa [schema] using hm
      · exact Option.isSome_of_eq_some h.ssid
      · exact Option.isSome_of_eq_some h.security

/-! ## Flags -/

theorem mem_flags_iff {α : Type} [Flag α] {names : List String} {a : α} :
    a ∈ (flags α names).members ↔ Flag.name a ∈ names := by
  simp [flags, Flag.parse?_eq_some_iff]

/-- Given the names in a list, a set holds their flags exactly if it is the set of the names. -/
theorem spellsFlags_iff {α : Type} [Flag α] {x : Option Json} {names : List String}
    (h : OrAbsent (IsList IsText) [] x names) {s : FlagSet α} :
    SpellsFlags x s ↔ flags α names = s := by
  constructor
  · rintro ⟨names', h', hmem⟩
    obtain rfl := Json.reads_text.list.orAbsent_unique h h'
    rw [← FlagSet.ofList_members s, ← FlagSet.ofList_members (flags α names)]
    exact FlagSet.ofList_congr fun a => mem_flags_iff.trans (hmem a).symm
  · rintro rfl
    exact ⟨names, h, fun a => mem_flags_iff⟩

/-! ## What records denote -/

theorem toWepKeys_eq_ok_iff {keys : List (Option String)} {k : WepKeys} :
    toWepKeys keys = .ok k ↔ keys.length ≤ 4 ∧ WepKeys.ofList keys = k := by
  unfold toWepKeys WepKeys.count
  split_ifs with h
  · simp only [false_iff, not_and]
    omega
  · simp only [Except.ok.injEq, iff_and_self]
    omega

theorem validate_describes_iff {r : Record} {c : IpConfig} {k : WepKeys} :
    (r.describes c k).validate = .ok () ↔ Text.isAllBlank r.ssid = false ∧
      (r.security = .wep → (r.wepTxKeyIndex.getD 0).toNat ≤ 3 ∧
        (k.anyFilled = true → k.isFilled (r.wepTxKeyIndex.getD 0).toNat = true)) := by
  rw [Profile.validate_eq_ok_iff]
  refine and_congr_right fun _ => forall_congr' fun hwep => ?_
  have hslot : (r.describes c k).wepTxKeyIndex = r.wepTxKeyIndex.getD 0 := if_pos hwep
  rw [hslot, WepKeys.count, Nat.lt_succ_iff]
  rfl

/-- A record denotes a profile exactly if its policy is sound, its network name is not blank, and
its keys fit the slots and fill the one used for transmission. -/
theorem exists_toProfile_iff {r : Record} :
    (∃ p, r.toProfile = .ok p) ↔ (∃ c, r.policy = .ok c) ∧ Text.isAllBlank r.ssid = false ∧
      (r.security = .wep → (r.wepKeys.getD []).length ≤ 4 ∧ (r.wepTxKeyIndex.getD 0).toNat ≤ 3 ∧
        Transmits (r.wepKeys.getD []) (r.wepTxKeyIndex.getD 0)) := by
  simp only [toProfile_eq_ok_iff, Transmits]
  constructor
  · rintro ⟨p, c, k, hc, hslots, rfl, hvalid⟩
    obtain ⟨hblank, hwep⟩ := validate_describes_iff.1 hvalid
    refine ⟨⟨c, hc⟩, hblank, fun hsecurity => ?_⟩
    rw [wepKeySlots, if_pos hsecurity, toWepKeys_eq_ok_iff] at hslots
    obtain ⟨hlength, rfl⟩ := hslots
    rw [← WepKeys.anyFilled_ofList_iff hlength,
      ← WepKeys.isFilled_ofList_iff hlength]
    exact ⟨hlength, hwep hsecurity⟩
  · rintro ⟨⟨c, hc⟩, hblank, hwep⟩
    by_cases hsecurity : r.security = .wep
    · obtain ⟨hlength, hslot, hkeys⟩ := hwep hsecurity
      rw [← WepKeys.anyFilled_ofList_iff hlength,
      ← WepKeys.isFilled_ofList_iff hlength] at hkeys
      refine ⟨_, c, .ofList (r.wepKeys.getD []), hc, ?_, rfl, ?_⟩
      · rw [wepKeySlots, if_pos hsecurity, toWepKeys_eq_ok_iff]
        exact ⟨hlength, rfl⟩
      · exact validate_describes_iff.2 ⟨hblank, fun _ => ⟨hslot, hkeys⟩⟩
    · refine ⟨_, c, {}, hc, if_neg hsecurity, rfl, ?_⟩
      exact validate_describes_iff.2 ⟨hblank, fun h => absurd h hsecurity⟩

/-! ## What the members denote -/

section Spelled

variable {members : List (String × Json)} {r : Record}

/-- A policy is spelled under its key exactly if the record has one that is sound. -/
theorem SpelledBy.policy_iff (h : SpelledBy members r) {c : IpConfig} :
    r.policy = .ok c ↔ ∃ c?, OrAbsent (OrNull fun v c => AddressingRecord.decode v = .ok c) none
      (Json.member? members "ipConfiguration") c? ∧ c = c?.getD {} := by
  have haddressing := h.ipConfiguration
  unfold policy
  generalize Json.member? members "ipConfiguration" = x at haddressing ⊢
  generalize r.ipConfiguration = a? at haddressing ⊢
  simp only [AddressingRecord.decode_eq_ok_iff]
  constructor
  · intro hc
    rcases haddressing with _ | (_ | hread)
    · obtain rfl := Except.ok.inj hc
      exact ⟨none, .absent, rfl⟩
    · obtain rfl := Except.ok.inj hc
      exact ⟨none, .given .null, rfl⟩
    · exact ⟨some c, .given (.given ⟨_, hread, hc⟩), rfl⟩
  · rintro ⟨c?, hpolicy, rfl⟩
    -- `null` is no addressing record, so the two derivations take the same way
    rcases hpolicy with _ | (_ | ⟨a, hread, hc⟩)
    · cases haddressing
      rfl
    · rcases haddressing with _ | (_ | hnull)
      · rfl
      · cases hnull
    · have hsome := reads_addressing?.orAbsent_unique haddressing (.given (.given hread))
      rw [hsome]
      exact hc

theorem exists_addressing_of_policy {x : Option Json} {c? : Option IpConfig}
    (h : OrAbsent (OrNull fun v c => AddressingRecord.decode v = .ok c) none x c?) :
    ∃ a?, OrAbsent (OrNull fun v a => AddressingRecord.ofJson v = .ok a) none x a? := by
  rcases h with _ | (_ | hc)
  · exact ⟨none, .absent⟩
  · exact ⟨none, .given .null⟩
  · obtain ⟨a, ha, -⟩ := AddressingRecord.decode_eq_ok_iff.1 hc
    exact ⟨some a, .given (.given ha)⟩

theorem exists_security_of_name {x : Option Json}
    (h : ∃ name ∈ ["NONE", "WEP", "PSK", "EAP"], x = some (.string name)) :
    ∃ s : Security, x = some (.string s.wireName) := by
  obtain ⟨name, hname, rfl⟩ := h
  simp only [List.mem_cons, List.not_mem_nil, or_false] at hname
  rcases hname with rfl | rfl | rfl | rfl
  · exact ⟨.unsecured, rfl⟩
  · exact ⟨.wep, rfl⟩
  · exact ⟨.psk, rfl⟩
  · exact ⟨.eap, rfl⟩

theorem SpelledBy.keys_iff (h : SpelledBy members r) {keys : List (Option String)} :
    SpellsKeys members keys ↔ r.wepKeys.getD [] = keys := by
  constructor
  · rintro ⟨keys?, hkeys, rfl⟩
    rw [Json.reads_keys?.orAbsent_unique h.wepKeys hkeys]
  · rintro rfl
    exact ⟨_, h.wepKeys, rfl⟩

theorem SpelledBy.slot_iff (h : SpelledBy members r) {slot : UInt8} :
    SpellsSlot members slot ↔ r.wepTxKeyIndex.getD 0 = slot := by
  constructor
  · rintro ⟨slot?, hslot, rfl⟩
    rw [Json.reads_octet?.orAbsent_unique h.wepTxKeyIndex hslot]
  · rintro rfl
    exact ⟨_, h.wepTxKeyIndex, rfl⟩

theorem SpelledBy.wep_iff (h : SpelledBy members r) :
    Json.member? members "security" = some (.string "WEP") ↔ r.security = .wep := by
  rw [h.security]
  cases r.security <;> simp [Security.wireName]

theorem SpelledBy.preSharedKey_iff (h : SpelledBy members r) {key : Option String} :
    (if r.security = .psk then
      OrAbsent (OrNull IsText) none (Json.member? members "preSharedKey") key else key = none) ↔
      (if r.security = .psk then r.preSharedKey else none) = key := by
  split_ifs
  · constructor
    · exact Json.reads_text?.orAbsent_unique h.preSharedKey
    · rintro rfl
      exact h.preSharedKey
  · exact eq_comm

theorem SpelledBy.wepKeys_iff (h : SpelledBy members r) {k k' : WepKeys}
    (hslots : r.wepKeySlots = .ok k) :
    (if r.security = .wep then ∃ keys, SpellsKeys members keys ∧
      k'.toList = keys ++ List.replicate (4 - keys.length) none else k' = {}) ↔ k = k' := by
  unfold wepKeySlots at hslots
  split_ifs at hslots ⊢
  · obtain ⟨hlength, rfl⟩ := toWepKeys_eq_ok_iff.1 hslots
    simp only [h.keys_iff, exists_eq_left', ← WepKeys.toList_ofList hlength]
    constructor
    · intro e
      exact congrArg WepKeys.ofList e.symm
    · rintro rfl
      rfl
  · obtain rfl := Except.ok.inj hslots
    exact eq_comm

theorem SpelledBy.wepTxKeyIndex_iff (h : SpelledBy members r) {slot : UInt8} :
    (if r.security = .wep then SpellsSlot members slot else slot = 0) ↔
      (if r.security = .wep then r.wepTxKeyIndex.getD 0 else 0) = slot := by
  split_ifs
  · exact h.slot_iff
  · exact eq_comm

/-- Members describe a profile exactly if it is the one of the record that they spell. -/
theorem SpelledBy.describes_iff (h : SpelledBy members r) {c : IpConfig} {k : WepKeys}
    (hpolicy : r.policy = .ok c) (hslots : r.wepKeySlots = .ok k) {p : Profile} :
    Describes members p ↔ r.describes c k = p := by
  constructor
  · intro hp
    have hsecurity : p.security = r.security := securityName_injective _ _
      (Json.string.inj (Option.some.inj (hp.security.symm.trans h.security)))
    have hpreSharedKey := h.preSharedKey_iff.1 (hsecurity ▸ hp.preSharedKey)
    have hwepKeys := (h.wepKeys_iff hslots).1 (hsecurity ▸ hp.wepKeys)
    have hslot := h.wepTxKeyIndex_iff.1 (hsecurity ▸ hp.wepTxKeyIndex)
    have hssid := Json.string.inj (Option.some.inj (h.ssid.symm.trans hp.ssid))
    have hipConfig := Except.ok.inj (hpolicy.symm.trans (h.policy_iff.2 hp.ipConfig))
    cases p
    unfold describes
    congr 1
    · exact Json.reads_text?.orAbsent_unique h.bssid hp.bssid
    · exact hsecurity.symm
    · exact Json.reads_truth.orAbsent_unique h.hiddenSsid hp.hiddenSsid
    · exact (spellsFlags_iff h.keyManagement).1 hp.keyManagement
    · exact (spellsFlags_iff h.protocols).1 hp.protocols
    · exact (spellsFlags_iff h.authAlgorithms).1 hp.authAlgorithms
    · exact Json.reads_truth.orAbsent_unique h.shared hp.shared
    · exact Json.reads_word32.orAbsent_unique h.creatorUid hp.creatorUid
    · exact hp.noDomain.symm
    · exact hp.noProviderName.symm
    · exact hp.notEphemeral.symm
  · rintro rfl
    constructor
    case ssid => exact h.ssid
    case security => exact h.security
    case bssid => exact h.bssid
    case preSharedKey => exact h.preSharedKey_iff.2 rfl
    case wepKeys => exact (h.wepKeys_iff hslots).2 rfl
    case wepTxKeyIndex => exact h.wepTxKeyIndex_iff.2 rfl
    case hiddenSsid => exact h.hiddenSsid
    case keyManagement => exact (spellsFlags_iff h.keyManagement).2 rfl
    case protocols => exact (spellsFlags_iff h.protocols).2 rfl
    case authAlgorithms => exact (spellsFlags_iff h.authAlgorithms).2 rfl
    case shared => exact h.shared
    case creatorUid => exact h.creatorUid
    case ipConfig => exact h.policy_iff.1 hpolicy
    case noDomain => rfl
    case noProviderName => rfl
    case notEphemeral => rfl

/-- Members make a record exactly if they spell one that denotes a profile. -/
theorem isRecord_iff :
    IsRecord members ↔ ∃ r, SpelledBy members r ∧ ∃ p, r.toProfile = .ok p := by
  simp only [exists_toProfile_iff]
  constructor
  · intro h
    obtain ⟨ssid, hssid, c, hc, hblank⟩ := h.ssid
    obtain ⟨security, hsecurity⟩ := exists_security_of_name h.security
    obtain ⟨bssid, hbssid⟩ := Json.exists_orAbsent_iff.2 h.bssid
    obtain ⟨preSharedKey, hkey⟩ := Json.exists_orAbsent_iff.2 h.preSharedKey
    obtain ⟨wepKeys, hkeys⟩ := Json.exists_orAbsent_iff.2 h.wepKeys
    obtain ⟨wepTxKeyIndex, hslot⟩ := Json.exists_orAbsent_iff.2 h.wepTxKeyIndex
    obtain ⟨hiddenSsid, hhidden⟩ := Json.exists_orAbsent_iff.2 h.hiddenSsid
    obtain ⟨keyManagement, hmanagement⟩ := Json.exists_orAbsent_iff.2 h.keyManagement
    obtain ⟨protocols, hprotocols⟩ := Json.exists_orAbsent_iff.2 h.protocols
    obtain ⟨authAlgorithms, halgorithms⟩ := Json.exists_orAbsent_iff.2 h.authAlgorithms
    obtain ⟨shared, hshared⟩ := Json.exists_orAbsent_iff.2 h.shared
    obtain ⟨creatorUid, huid⟩ := Json.exists_orAbsent_iff.2 h.creatorUid
    obtain ⟨c?, hpolicy⟩ := Json.exists_orAbsent_iff.2 h.ipConfiguration
    obtain ⟨ipConfiguration, haddressing⟩ := exists_addressing_of_policy hpolicy
    have hspelled : SpelledBy members ⟨ssid, bssid, security, preSharedKey, wepKeys,
        wepTxKeyIndex, hiddenSsid, keyManagement, protocols, authAlgorithms, shared, creatorUid,
        ipConfiguration⟩ :=
      ⟨hssid, hbssid, hsecurity, hkey, hkeys, hslot, hhidden, hmanagement, hprotocols,
        halgorithms, hshared, huid, haddressing⟩
    refine ⟨_, hspelled, ⟨_, hspelled.policy_iff.2 ⟨c?, hpolicy, rfl⟩⟩, ?_, fun hwep => ?_⟩
    · exact Text.isAllBlank_eq_false_iff.2 ⟨c, hc, hblank⟩
    · exact h.wep (hspelled.wep_iff.2 hwep) _ _ (hspelled.keys_iff.2 rfl)
        (hspelled.slot_iff.2 rfl)
  · rintro ⟨r, h, ⟨c, hc⟩, hblank, hwep⟩
    obtain ⟨c?, hpolicy, -⟩ := h.policy_iff.1 hc
    constructor
    case ssid => exact ⟨r.ssid, h.ssid, Text.isAllBlank_eq_false_iff.1 hblank⟩
    case security => exact ⟨_, by cases r.security <;> decide, h.security⟩
    case bssid => exact .of_orAbsent h.bssid
    case preSharedKey => exact .of_orAbsent h.preSharedKey
    case wepKeys => exact .of_orAbsent h.wepKeys
    case wepTxKeyIndex => exact .of_orAbsent h.wepTxKeyIndex
    case hiddenSsid => exact .of_orAbsent h.hiddenSsid
    case keyManagement => exact .of_orAbsent h.keyManagement
    case protocols => exact .of_orAbsent h.protocols
    case authAlgorithms => exact .of_orAbsent h.authAlgorithms
    case shared => exact .of_orAbsent h.shared
    case creatorUid => exact .of_orAbsent h.creatorUid
    case ipConfiguration => exact .of_orAbsent hpolicy
    case wep =>
      intro hname keys slot hkeys hslot
      rw [← h.keys_iff.1 hkeys, ← h.slot_iff.1 hslot]
      exact hwep (h.wep_iff.1 hname)

end Spelled

/-! ## Reading records -/

/-- The profile of an object: which objects have one, and which one it is. -/
structure ReadAsRecord (members : List (String × Json)) : Prop where
  accepted : (∃ p, decode (.object members) = .ok p) ↔ IsRecord members
  described : ∀ p, decode (.object members) = .ok p ↔ IsRecord members ∧ Describes members p

/-- An object whose security type is not an object is read by the grammar of records. -/
theorem record_readByGrammar (members : List (String × Json))
    (hsecurity : NoObject (Json.member? members "security")) : ReadAsRecord members := by
  have haccepted : (∃ p, decode (.object members) = .ok p) ↔ IsRecord members := by
    simp only [decode_eq_ok_iff, ofJson_object_iff hsecurity, isRecord_iff]
    exact ⟨fun ⟨p, r, h, hp⟩ => ⟨r, h, p, hp⟩, fun ⟨r, h, p, hp⟩ => ⟨p, r, h, hp⟩⟩
  refine ⟨haccepted, fun p => ?_⟩
  rw [← haccepted]
  simp only [decode_eq_ok_iff, ofJson_object_iff hsecurity]
  constructor
  · rintro ⟨r, h, hp⟩
    obtain ⟨c, k, hpolicy, hslots, hdescribes, -⟩ := toProfile_eq_ok_iff.1 hp
    exact ⟨⟨p, r, h, hp⟩, (h.describes_iff hpolicy hslots).2 hdescribes⟩
  · rintro ⟨⟨q, r, h, hq⟩, hp⟩
    obtain ⟨c, k, hpolicy, hslots, hdescribes, -⟩ := toProfile_eq_ok_iff.1 hq
    obtain rfl : q = p := hdescribes.symm.trans ((h.describes_iff hpolicy hslots).1 hp)
    exact ⟨r, h, hq⟩

/-- A WEP network with a single key in the second slot, a flag that nobody knows, a stray passphrase
and a policy without gateway. -/
def labMembers : List (String × Json) :=
  [("ssid", .string "lab"), ("security", .string "WEP"), ("preSharedKey", .string "stray"),
    ("wepKeys", .array [.null, .string "12345"]), ("wepTxKeyIndex", .octet 1),
    ("allowedProtocols", .strings ["RSN", "WPA9", "WPA"]), ("shared", .bool true),
    ("ipConfiguration", .object AddressingRecord.proxiedMembers)]

/-- What the members describe. -/
def labProfile : Profile :=
  { ssid := "lab"
    security := .wep
    wepKeys := ⟨none, some "12345", none, none⟩
    wepTxKeyIndex := 1
    protocols := .ofList [.wpa, .rsn]
    shared := true
    ipConfig := ⟨.static { linkAddress := some ⟨.v4 ⟨192, 168, 48, 2⟩, 8, by decide⟩ },
      .fixed "proxy" 8080 ""⟩ }

theorem record_readByGrammar_lab :
    NoObject (Json.member? labMembers "security") ∧ ReadAsRecord labMembers ∧
      IsRecord labMembers ∧ Describes labMembers labProfile := by
  have hsecurity : NoObject (Json.member? labMembers "security") := fun _ h => by cases h
  have hread := record_readByGrammar _ hsecurity
  have hdecode : decode (.object labMembers) = .ok labProfile := by decide +kernel
  exact ⟨hsecurity, hread, (hread.described _).1 hdecode⟩

end Record

end WirelessArchive
