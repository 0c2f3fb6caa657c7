import WirelessArchive.Proofs.Json.Shape
import WirelessArchive.Record.Basic

/-!
# The members of records

For each member of a record, `Has` says which of its fields the member settles, how its value is
read, and what it stands for if it is absent.  What a record writes for a member is such a value
(`has_member?`).  Since every field belongs to one member, a record is read back from what it
writes, whatever it holds (`ofJson_toJson`).
-/

namespace WirelessArchive

open Json (Denotes Fits)

namespace AddressingRecord

/-- The field of a member is what is given for the member, or its default. -/
def Has (r : AddressingRecord) : Member → Option Json → Prop
  | .assignment, x => Denotes (Json.asVariant AssignmentMode.table) .dhcp x r.assignment
  | .linkAddress, x => Denotes (Json.asOption Json.asLink) none x r.linkAddress
  | .gateway, x => Denotes (Json.asOption Json.asAddress) none x r.gateway
  | .dnsServers, x => Denotes (Json.asList Json.asAddress) [] x r.dnsServers
  | .proxySettings, x => Denotes (Json.asVariant ProxyMode.table) .direct x r.proxySettings
  | .proxyHost, x => Denotes (Json.asOption Json.asString) none x r.proxyHost
  | .proxyPort, x => Denotes (Json.asOption Json.asWord16) none x r.proxyPort
  | .proxyExclusionList, x => Denotes (Json.asOption Json.asString) none x r.proxyExclusionList
  | .proxyPacUrl, x => Denotes (Json.asOption Json.asString) none x r.proxyPacUrl

theorem eq_of_has {t r : AddressingRecord} (h : ∀ m, ∃ x, Has t m x ∧ Has r m x) : t = r := by
  cases t
  cases r
  congr 1
  · exact Denotes.unique_of_exists (h .assignment)
  · exact Denotes.unique_of_exists (h .linkAddress)
  · exact Denotes.unique_of_exists (h .gateway)
  · exact Denotes.unique_of_exists (h .dnsServers)
  · exact Denotes.unique_of_exists (h .proxySettings)
  · exact Denotes.unique_of_exists (h .proxyHost)
  · exact Denotes.unique_of_exists (h .proxyPort)
  · exact Denotes.unique_of_exists (h .proxyExclusionList)
  · exact Denotes.unique_of_exists (h .proxyPacUrl)

theorem fields : schema.Fields put {} Has where
  key_injective m n := by cases m <;> cases n <;> decide
  mem_declared m := by cases m <;> decide
  mem_byKey m := by cases m <;> decide
  nodup_byKey := by decide
  blank_has m := by cases m <;> rfl
  put_has {t t' m v} h := by
    cases m <;>
      · obtain ⟨a, ha, rfl⟩ := Json.map_eq_ok_iff.1 h
        exact ha
  put_frame {t t' m n v x} h hn hx := by
    cases m <;>
      · obtain ⟨a, -, rfl⟩ := Json.map_eq_ok_iff.1 h
        cases n <;> first | exact absurd rfl hn | exact hx
  put_of_has {r m v} t h := by
    cases m <;> exact ⟨_, Json.map_eq_ok_iff.2 ⟨_, h, rfl⟩⟩
  has_unique := eq_of_has

theorem has_member? (r : AddressingRecord) (m : Member) : Has r m (r.member? m) := by
  cases m with
  | assignment =>
    show Json.asVariant _ (.string r.assignment.wireName) = _
    cases r.assignment <;> rfl
  | linkAddress => exact Json.denotes_map Json.asLink_text (by nofun) r.linkAddress
  | gateway => exact Json.denotes_map Json.asAddress_text (by nofun) r.gateway
  | dnsServers =>
    have h := Json.denotes_unless_nil Json.asAddress_text r.dnsServers
    show Denotes _ [] (if r.dnsServers = [] then none else some (.strings _)) _
    rw [Json.strings, List.map_map]
    exact h
  | proxySettings =>
    show Json.asVariant _ (.string r.proxySettings.wireName) = _
    cases r.proxySettings <;> rfl
  | proxyHost => exact Json.denotes_string? r.proxyHost
  | proxyPort => exact Json.denotes_map Json.asWord16_word16 (by nofun) r.proxyPort
  | proxyExclusionList => exact Json.denotes_string? r.proxyExclusionList
  | proxyPacUrl => exact Json.denotes_string? r.proxyPacUrl

/-- The addressing part of a record is read back from what it writes. -/
theorem ofJson_toJson (r : AddressingRecord) : ofJson r.toJson = .ok r :=
  Json.Schema.read_written fields r.has_member? nofun

theorem toJson_ne_null (r : AddressingRecord) : r.toJson ≠ .null := nofun

theorem fits_member? {r : AddressingRecord} {m : Member} {v : Json} (h : r.member? m = some v) :
    Fits 1 v := by
  cases m with
  | assignment =>
    obtain rfl := Option.some.inj h
    exact .string 1 _
  | proxySettings =>
    obtain rfl := Option.some.inj h
    exact .string 1 _
  | dnsServers =>
    obtain ⟨-, h⟩ := Option.ite_none_left_eq_some.1 h
    obtain rfl := Option.some.inj h
    exact Json.fits_strings _
  | proxyPort =>
    obtain ⟨port, -, rfl⟩ := Option.map_eq_some_iff.1 h
    exact Json.fits_natural 1 _
  | _ =>
    obtain ⟨a, -, rfl⟩ := Option.map_eq_some_iff.1 h
    exact .string 1 _

theorem fits_toJson (r : AddressingRecord) : Fits 2 r.toJson :=
  schema.fits_written fun _ _ h => fits_member? h

end AddressingRecord

namespace Record

/-- The field of a member is what is given for the member, or its default. -/
def Has (r : Record) : Member → Option Json → Prop
  | .ssid, x => Denotes Json.asString "" x r.ssid
  | .bssid, x => Denotes (Json.asOption Json.asString) none x r.bssid
  | .security, x => Denotes (Json.asVariant Security.table) .unsecured x r.security
  | .preSharedKey, x => Denotes (Json.asOption Json.asString) none x r.preSharedKey
  | .wepKeys, x =>
    Denotes (Json.asOption (Json.asList (Json.asOption Json.asString))) none x r.wepKeys
  | .wepTxKeyIndex, x => Denotes (Json.asOption Json.asOctet) none x r.wepTxKeyIndex
  | .hiddenSsid, x => Denotes Json.asBool false x r.hiddenSsid
  | .keyManagement, x => Denotes (Json.asList Json.asString) [] x r.keyManagement
  | .protocols, x => Denotes (Json.asList Json.asString) [] x r.protocols
  | .authAlgorithms, x => Denotes (Json.asList Json.asString) [] x r.authAlgorithms
  | .shared, x => Denotes Json.asBool false x r.shared
  | .creatorUid, x => Denotes Json.asWord32 0 x r.creatorUid
  | .ipConfiguration, x => Denotes (Json.asOption AddressingRecord.ofJson) none x r.ipConfiguration

theorem eq_of_has {t r : Record} (h : ∀ m, ∃ x, Has t m x ∧ Has r m x) : t = r := by
  cases t
  cases r
  congr 1
  · exact Denotes.unique_of_exists (h .ssid)
  · exact Denotes.unique_of_exists (h .bssid)
  · exact Denotes.unique_of_exists (h .security)
  · exact Denotes.unique_of_exists (h .preSharedKey)
  · exact Denotes.unique_of_exists (h .wepKeys)
  · exact Denotes.unique_of_exists (h .wepTxKeyIndex)
  · exact Denotes.unique_of_exists (h .hiddenSsid)
  · exact Denotes.unique_of_exists (h .keyManagement)
  · exact Denotes.unique_of_exists (h .protocols)
  · exact Denotes.unique_of_exists (h .authAlgorithms)
  · exact Denotes.unique_of_exists (h .shared)
  · exact Denotes.unique_of_exists (h .creatorUid)
  · exact Denotes.unique_of_exists (h .ipConfiguration)

theorem fields : schema.Fields put {} Has where
  key_injective m n := by cases m <;> cases n <;> decide
  mem_declared m := by cases m <;> decide
  mem_byKey m := by cases m <;> decide
  nodup_byKey := by decide
  blank_has m := by cases m <;> rfl
  put_has {t t' m v} h := by
    cases m <;>
      · obtain ⟨a, ha, rfl⟩ := Json.map_eq_ok_iff.1 h
        exact ha
  put_frame {t t' m n v x} h hn hx := by
    cases m <;>
      · obtain ⟨a, -, rfl⟩ := Json.map_eq_ok_iff.1 h
        cases n <;> first | exact absurd rfl hn | exact hx
  put_of_has {r m v} t h := by
    cases m <;> exact ⟨_, Json.map_eq_ok_iff.2 ⟨_, h, rfl⟩⟩
  has_unique := eq_of_has

theorem has_member? (r : Record) (m : Member) : Has r m (r.member? m) := by
  cases m with
  | ssid => exact Json.asString_string r.ssid
  | bssid => exact Json.denotes_string? r.bssid
  | security =>
    show Json.asVariant _ (.string r.security.wireName) = _
    cases r.security <;> rfl
  | preSharedKey => exact Json.denotes_string? r.preSharedKey
  | wepKeys =>
    exact Json.denotes_map (Json.asList_map Json.asOption_ofString?) (by nofun) r.wepKeys
  | wepTxKeyIndex => exact Json.denotes_map Json.asOctet_octet (by nofun) r.wepTxKeyIndex
  | hiddenSsid => rfl
  | keyManagement => exact Json.denotes_unless_nil Json.asString_string r.keyManagement
  | protocols => exact Json.denotes_unless_nil Json.asString_string r.protocols
  | authAlgorithms => exact Json.denotes_unless_nil Json.asString_string r.authAlgorithms
  | shared => rfl
  | creatorUid => exact Json.asWord32_word32 r.creatorUid
  | ipConfiguration =>
    exact Json.denotes_map AddressingRecord.ofJson_toJson AddressingRecord.toJson_ne_null
      r.ipConfiguration

theorem isSome_member? (r : Record) : ∀ m ∈ schema.mandatory, (r.member? m).isSome := by
  intro m hm
  obtain rfl | rfl : m = .ssid ∨ m = .security := by simpa [schema] using hm
  · rfl
  · rfl

/-- A record is read back from what it writes. -/
theorem ofJson_toJson (r : Record) : ofJson r.toJson = .ok r :=
  Json.Schema.read_written fields r.has_member? r.isSome_member?

theorem fits_names? {names : List String} {v : Json} (h : names? names = some v) : Fits 2 v := by
  obtain ⟨-, h⟩ := Option.ite_none_left_eq_some.1 h
  obtain rfl := Option.some.inj h
  exact (Json.fits_strings names).mono (by decide)

theorem fits_member? {r : Record} {m : Member} {v : Json} (h : r.member? m = some v) :
    Fits 2 v := by
  cases m with
  | ssid =>
    obtain rfl := Option.some.inj h
    exact .string 2 _
  | security =>
    obtain rfl := Option.some.inj h
    exact .string 2 _
  | hiddenSsid =>
    obtain rfl := Option.some.inj h
    exact .bool 2 _
  | shared =>
    obtain rfl := Option.some.inj h
    exact .bool 2 _
  | creatorUid =>
    obtain rfl := Option.some.inj h
    exact Json.fits_natural 2 _
  | wepKeys =>
    obtain ⟨keys, -, rfl⟩ := Option.map_eq_some_iff.1 h
    refine .array fun v hv => ?_
    obtain ⟨key, -, rfl⟩ := List.mem_map.1 hv
    exact Json.fits_ofString? 1 key
  | wepTxKeyIndex =>
    obtain ⟨slot, -, rfl⟩ := Option.map_eq_some_iff.1 h
    exact Json.fits_natural 2 _
  | keyManagement => exact fits_names? h
  | protocols => exact fits_names? h
  | authAlgorithms => exact fits_names? h
  | ipConfiguration =>
    obtain ⟨addressing, -, rfl⟩ := Option.map_eq_some_iff.1 h
    exact addressing.fits_toJson
  | _ =>
    obtain ⟨s, -, rfl⟩ := Option.map_eq_some_iff.1 h
    exact .string 2 s

theorem fits_toJson (r : Record) : Fits 3 r.toJson :=
  schema.fits_written fun _ _ h => fits_member? h

end Record

end WirelessArchive
