import WirelessArchive.Proofs.Profile.Selection
import WirelessArchive.Proofs.Record.Members

/-!
# Profiles as records

A record denotes a profile if its policy, its key slots and the profile that it describes are sound
(`toProfile_eq_ok_iff`).

The record of a profile denotes that profile, up to what records do not carry: credentials of
another security type and everything that is never backed up.  What is left is `restored`.  It is as
valid as the profile itself (`validate_restored`) and makes the same record (`ofProfile_restored`),
so that the record depends on nothing else.  Written to JSON and read back, the record is judged by
the validity of the profile and otherwise gives what is left of it (`decode_ofProfile`).
-/

namespace WirelessArchive

/-! ## Flags -/

namespace FlagSet

/-- A sublist of distinct members holds those that it contains. -/
theorem filter_contains_of_sublist {α : Type} [BEq α] [LawfulBEq α] {l all : List α}
    (h : l.Sublist all) (hall : all.Nodup) : all.filter l.contains = l := by
  induction h with
  | slnil => rfl
  | @cons l all a h ih =>
    obtain ⟨ha, hall⟩ := List.nodup_cons.1 hall
    have hl : ¬l.contains a = true := by
      rw [List.contains_iff_mem]
      exact fun hal => ha (h.subset hal)
    rw [List.filter_cons_of_neg hl]
    exact ih hall
  | @cons_cons l all a h ih =>
    obtain ⟨ha, hall⟩ := List.nodup_cons.1 hall
    have hrest : all.filter (a :: l).contains = all.filter l.contains := by
      refine List.filter_congr fun b hb => ?_
      have hba : (b == a) = false := beq_false_of_ne fun e => ha (e ▸ hb)
      rw [List.contains_cons, hba, Bool.false_or]
    rw [List.filter_cons_of_pos (by rw [List.contains_iff_mem]; exact List.mem_cons_self), hrest,
      ih hall]

theorem ofList_members {α : Type} [Flag α] (s : FlagSet α) : ofList s.members = s :=
  ext_members (filter_contains_of_sublist s.sublist_all Flag.nodup_all)

end FlagSet

/-! ## Validity and eligibility -/

theorem WepKeys.eq_empty_of_anyFilled {k : WepKeys} (h : ¬k.anyFilled = true) : k = {} := by
  obtain ⟨slot0, slot1, slot2, slot3⟩ := k
  simpa [anyFilled, toList] using h

namespace Profile

theorem validate_restored (p : Profile) : p.restored.validate = p.validate := by
  by_cases hwep : p.security = .wep
  · simp only [validate, restored, if_pos hwep]
  · simp [validate, restored, hwep]

theorem restored_restored (p : Profile) : p.restored.restored = p.restored := by
  simp only [restored, Profile.mk.injEq, true_and, and_true]
  refine ⟨?_, ?_, ?_⟩ <;> split <;> rfl

/-- What is left of an eligible profile is eligible. -/
theorem exclusion?_restored {p : Profile} (h : p.isEligible = true) :
    p.restored.exclusion? = none := by
  refine exclusion?_of_not_covers fun rule => ?_
  cases rule with
  | enterprise => exact isEligible_iff_not_covers.1 h .enterprise
  | passpoint =>
    rintro ⟨domain, hdomain, -⟩
    cases hdomain
  | ephemeral => exact Bool.false_ne_true

end Profile

/-! ## What a record denotes -/

namespace Record

/-- A record denotes the profile that it describes, once its policy and its key slots are sound and
the profile is valid. -/
theorem toProfile_eq_ok_iff {r : Record} {p : Profile} :
    r.toProfile = .ok p ↔ ∃ ipConfig wepKeys, r.policy = .ok ipConfig ∧
      r.wepKeySlots = .ok wepKeys ∧ r.describes ipConfig wepKeys = p ∧ p.validate = .ok () := by
  constructor
  · intro h
    unfold toProfile at h
    cases hpolicy : r.policy with
    | error e =>
      rw [hpolicy] at h
      cases h
    | ok ipConfig =>
      cases hslots : r.wepKeySlots with
      | error e =>
        rw [hpolicy, hslots] at h
        cases h
      | ok wepKeys =>
        cases hvalid : (r.describes ipConfig wepKeys).validate with
        | error reason =>
          simp only [hpolicy, hslots, bind, Except.bind, hvalid] at h
          cases h
        | ok u =>
          simp only [hpolicy, hslots, bind, Except.bind, hvalid] at h
          obtain rfl := Except.ok.inj h
          exact ⟨ipConfig, wepKeys, rfl, rfl, rfl, hvalid⟩
  · rintro ⟨ipConfig, wepKeys, hpolicy, hslots, rfl, hvalid⟩
    simp only [toProfile, hpolicy, hslots, bind, Except.bind, hvalid]
    rfl

theorem decode_eq_ok_iff {v : Json} {p : Profile} :
    decode v = .ok p ↔ ∃ r, ofJson v = .ok r ∧ r.toProfile = .ok p := by
  unfold decode
  cases ofJson v with
  | error mismatch => simp
  | ok r => simp

/-- Only a WEP record fills key slots. -/
theorem wepKeySlots_of_not_wep {r : Record} (h : r.security ≠ .wep) {wepKeys : WepKeys}
    (hslots : r.wepKeySlots = .ok wepKeys) : wepKeys = {} := by
  rw [wepKeySlots, if_neg h] at hslots
  exact (Except.ok.inj hslots).symm

end Record

/-! ## Records of profiles -/

theorem AddressingRecord.toIpConfig_ofIpConfig (c : IpConfig) :
    (ofIpConfig c).toIpConfig = .ok c := by
  obtain ⟨assignment, proxy⟩ := c
  cases assignment <;> cases proxy <;> rfl

namespace Record

theorem flags_names {α : Type} [Flag α] (s : FlagSet α) : flags α s.names = s := by
  have h : ∀ l : List α, (l.map Flag.name).filterMap Flag.parse? = l := by
    intro l
    rw [List.filterMap_map]
    have hparse : Flag.parse? ∘ Flag.name = (some : α → Option α) := funext Flag.parse?_name
    rw [hparse, List.filterMap_some]
  rw [flags, FlagSet.names, h, FlagSet.ofList_members]

theorem ofProfile_restored (p : Profile) : ofProfile p.restored = ofProfile p := by
  by_cases hwep : p.security = .wep
  · simp [ofProfile, Profile.restored, hwep]
  · by_cases hpsk : p.security = .psk
    · simp [ofProfile, Profile.restored, hpsk]
    · simp [ofProfile, Profile.restored, hwep, hpsk]

/-- The key slots are filled as they were; where no slot was filled, none is written. -/
theorem wepKeySlots_ofProfile (p : Profile) :
    (ofProfile p).wepKeySlots = .ok p.restored.wepKeys := by
  show (if p.security = .wep then toWepKeys ((ofProfile p).wepKeys.getD []) else .ok {}) =
    .ok (if p.security = .wep then p.wepKeys else {})
  by_cases hwep : p.security = .wep
  · rw [if_pos hwep, if_pos hwep]
    by_cases hfilled : p.wepKeys.anyFilled = true
    · have hkeys : (ofProfile p).wepKeys = some p.wepKeys.toList := if_pos ⟨hwep, hfilled⟩
      rw [hkeys]
      rfl
    · have hkeys : (ofProfile p).wepKeys = none := if_neg fun h => hfilled h.2
      rw [hkeys, WepKeys.eq_empty_of_anyFilled hfilled]
      rfl
  · rw [if_neg hwep, if_neg hwep]

theorem describes_ofProfile (p : Profile) :
    (ofProfile p).describes p.ipConfig p.restored.wepKeys = p.restored := by
  have hpsk : (if p.security = .psk then (ofProfile p).preSharedKey else none) =
      p.restored.preSharedKey := by
    simp only [ofProfile, Profile.restored]
    split <;> rfl
  have hslot : (if p.security = .wep then (ofProfile p).wepTxKeyIndex.getD 0 else 0) =
      p.restored.wepTxKeyIndex := by
    simp only [ofProfile, Profile.restored]
    split <;> rfl
  unfold describes
  rw [show (ofProfile p).security = p.security from rfl, hpsk, hslot]
  show ({ p.restored with
    keyManagement := flags KeyManagement p.keyManagement.names
    protocols := flags Protocol p.protocols.names
    authAlgorithms := flags AuthAlgorithm p.authAlgorithms.names } : Profile) = p.restored
  rw [flags_names, flags_names, flags_names]
  rfl

/-- The record of a profile denotes what is left of the profile, if that is valid. -/
theorem toProfile_ofProfile (p : Profile) :
    (ofProfile p).toProfile =
      match p.validate with
      | .ok () => .ok p.restored
      | .error reason => .error (.invalid reason) := by
  have hpolicy : (ofProfile p).policy = .ok p.ipConfig :=
    AddressingRecord.toIpConfig_ofIpConfig p.ipConfig
  unfold toProfile
  simp only [hpolicy, wepKeySlots_ofProfile, bind, Except.bind, describes_ofProfile,
    Profile.validate_restored]
  rfl

/-- A profile is judged by its validity when it is read back, and otherwise what is left of it
comes back. -/
theorem decode_ofProfile (p : Profile) :
    decode (ofProfile p).toJson =
      match p.validate with
      | .ok () => .ok p.restored
      | .error reason => .error (.invalid reason) := by
  rw [decode, ofJson_toJson, ← toProfile_ofProfile]

end Record

end WirelessArchive
