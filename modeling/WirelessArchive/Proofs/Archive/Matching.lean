import WirelessArchive.Proofs.Archive.Stability
import WirelessArchive.Proofs.Profile.KeyIndex

/-!
# Restored profiles are matched by key

A caller finds the restored form of a saved profile under its key.  A backup keeps keys as they are:
a profile that may leave the device has no provider domain, or an empty one, so that its key does
not change when the domain is left out.  It keeps the order of the profiles too, so that of profiles
with one key the same one is the last, before and after.
-/

namespace WirelessArchive

/-! ## Keys -/

namespace Profile

theorem isPasspoint_of_isEligible {p : Profile} (h : p.isEligible = true) :
    p.isPasspoint = false :=
  Bool.eq_false_iff.2 fun hp => isEligible_iff_not_covers.1 h .passpoint (isPasspoint_iff.1 hp)

theorem configKey_restored {p : Profile} (h : p.isEligible = true) :
    p.restored.configKey = p.configKey := by
  have hrestored : p.restored.isPasspoint = false := rfl
  simp only [configKey, hrestored, isPasspoint_of_isEligible h]
  rfl

/-- The profile is what is left of another: it has the key of the other, and describes the same
network with the credentials of its security type. -/
structure RestoredFrom (r p : Profile) : Prop where
  eq : r = p.restored
  configKey : r.configKey = p.configKey
  ssid : r.ssid = p.ssid
  security : r.security = p.security
  passphrase : p.security = .psk → r.preSharedKey = p.preSharedKey
  slots : p.security = .wep → r.wepKeys = p.wepKeys ∧ r.wepTxKeyIndex = p.wepTxKeyIndex

theorem restoredFrom_restored {p : Profile} (h : p.isEligible = true) :
    p.restored.RestoredFrom p where
  eq := rfl
  configKey := configKey_restored h
  ssid := rfl
  security := rfl
  passphrase hpsk := if_pos hpsk
  slots hwep := ⟨if_pos hwep, if_pos hwep⟩

end Profile

/-! ## Indexes -/

/-- The index has an entry for each key of the list, in increasing order of the keys: the last
profile with the key. -/
structure IsIndexOf (profiles : List Profile) (index : KeyIndex Profile) : Prop where
  ordered : index.Ordered
  keys : ∀ k, k ∈ index.keys ↔ ∃ p ∈ profiles, p.configKey = k
  last : ∀ k p, index.find? k = some p ↔
    ∃ front back, profiles = front ++ p :: back ∧ p.configKey = k ∧ ∀ q ∈ back, q.configKey ≠ k

theorem isIndexOf_indexByKey (profiles : List Profile) :
    IsIndexOf profiles (indexByKey profiles) where
  ordered := KeyIndex.ordered_ofList profiles
  keys _ := KeyIndex.mem_keys_ofList
  last _ _ := KeyIndex.find?_ofList_eq_some_iff

/-- The lists have the same keys, and under each key stands what is left of the saved profile. -/
structure Matched (saved restored : List Profile) : Prop where
  keys : ∀ k, k ∈ (indexByKey restored).keys ↔ k ∈ (indexByKey saved).keys
  pairs : ∀ k,
    Option.Rel Profile.RestoredFrom ((indexByKey restored).find? k) ((indexByKey saved).find? k)

theorem matched_map_restored {saved : List Profile} (h : ∀ p ∈ saved, p.isEligible = true) :
    Matched saved (saved.map Profile.restored) := by
  have hfind : ∀ k, (indexByKey (saved.map Profile.restored)).find? k =
      ((indexByKey saved).find? k).map Profile.restored :=
    KeyIndex.find?_ofList_map fun p hp => Profile.configKey_restored (h p hp)
  constructor
  case keys =>
    intro k
    rw [KeyIndex.mem_keys_iff, KeyIndex.mem_keys_iff, hfind, Option.isSome_map]
  case pairs =>
    intro k
    rw [hfind]
    cases hp : (indexByKey saved).find? k with
    | none => exact .none
    | some p =>
      obtain ⟨front, back, hsaved, -⟩ := (isIndexOf_indexByKey saved).last k p |>.1 hp
      have hmem : p ∈ saved := hsaved ▸ List.mem_append_right front List.mem_cons_self
      exact .some (Profile.restoredFrom_restored (h p hmem))

/-! ## Backups -/

/-- An index holds the last profile of each key, and what is restored from a backup is indexed like
the profiles that it was written for. -/
theorem restored_matched :
    (∀ profiles, IsIndexOf profiles (indexByKey profiles)) ∧
    (∀ xs ys k, (indexByKey (xs ++ ys)).find? k =
      ((indexByKey ys).find? k).or ((indexByKey xs).find? k)) ∧
    ∀ (writer reader : Settings) (profiles : List Profile),
      (encode writer profiles).blob.length ≤ reader.maxBlobBytes.toNat →
      ∃ restored, (decodeProfiles reader (encode writer profiles).blob).1 = some restored ∧
        Matched (profiles.filter fun p => p.isEligible && p.isValid) restored := by
  refine ⟨isIndexOf_indexByKey, KeyIndex.find?_ofList_append, fun writer reader profiles hsize => ?_⟩
  refine ⟨_, decodeProfiles_of_ok (report_encode writer reader profiles hsize),
    matched_map_restored fun p hp => ?_⟩
  exact (Bool.and_eq_true_iff.1 (List.mem_filter.1 hp).2).1

/-- Networks of which two have the same key, and one names an empty provider domain. -/
def repeatedProfiles : List Profile :=
  [Profile.psk "home" "one", { Profile.unsecured "café" with fqdn := some "" },
    { Profile.unsecured "hotspot" with fqdn := some "example.com" }, Profile.psk "home" "two"]

theorem restored_matched_repeatedProfiles :
    (indexByKey repeatedProfiles).find? ⟨"homeWPA_PSK"⟩ = some (Profile.psk "home" "two") ∧
    (encode {} repeatedProfiles).blob.length ≤ 1048576 ∧
    ∃ restored, (decodeProfiles {} (encode {} repeatedProfiles).blob).1 = some restored ∧
      Matched
        [Profile.psk "home" "one", { Profile.unsecured "café" with fqdn := some "" },
          Profile.psk "home" "two"] restored := by
  have hsize : (encode {} repeatedProfiles).blob.length ≤ 1048576 := by decide +kernel
  have hsaved : (repeatedProfiles.filter fun p => p.isEligible && p.isValid) =
      [Profile.psk "home" "one", { Profile.unsecured "café" with fqdn := some "" },
        Profile.psk "home" "two"] := by decide +kernel
  have h := restored_matched.2.2 {} {} repeatedProfiles hsize
  rw [hsaved] at h
  exact ⟨by decide +kernel, hsize, h⟩

end WirelessArchive
