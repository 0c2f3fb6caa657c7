import WirelessArchive.Profile.Exclusion
import WirelessArchive.Proofs.Profile.ConfigKey

/-!
# What keeps a profile out of a backup

A profile is kept out by a rule that covers it (`Exclusion.Covers`), and else by a fault that it has
(`Profile.Fails`).  Of several rules the first one is the reason, and of several faults the first
one is told; both are put out in words.
-/

namespace WirelessArchive

theorem Text.isAllBlank_eq_true_iff {s : String} :
    isAllBlank s = true ↔ ∀ c ∈ s.toList, isBlank c = true := List.all_eq_true

theorem Text.isAllBlank_eq_false_iff {s : String} :
    isAllBlank s = false ↔ ∃ c ∈ s.toList, isBlank c = false := by
  simp [isAllBlank]

/-! ## Rules -/

namespace Exclusion

/-- The profiles that a rule excludes. -/
def Covers : Exclusion → Profile → Prop
  | enterprise, p => p.security = .eap
  | passpoint, p => ∃ domain, p.fqdn = some domain ∧ domain ≠ ""
  | ephemeral, p => p.ephemeral = true

/-- The rule is the first of the three that excludes the profile. -/
def IsFirst : Exclusion → Profile → Prop
  | enterprise, p => enterprise.Covers p
  | passpoint, p => ¬enterprise.Covers p ∧ passpoint.Covers p
  | ephemeral, p => ¬enterprise.Covers p ∧ ¬passpoint.Covers p ∧ ephemeral.Covers p

/-- The word that is put out for a rule. -/
def word : Exclusion → String
  | enterprise => "enterprise"
  | passpoint => "passpoint"
  | ephemeral => "ephemeral"

theorem text_eq_word (rule : Exclusion) : rule.text = rule.word := by
  cases rule <;> rfl

end Exclusion

namespace Profile

variable {p : Profile}

theorem isEnterprise_iff : p.security.isEnterprise = true ↔ Exclusion.enterprise.Covers p := by
  rw [Exclusion.Covers]
  cases p.security <;> simp [Security.isEnterprise]

theorem isPasspoint_iff : p.isPasspoint = true ↔ Exclusion.passpoint.Covers p :=
  isPasspoint_eq_true_iff

theorem exclusion?_of_isFirst {reason : Exclusion} (h : reason.IsFirst p) :
    p.exclusion? = some reason := by
  rw [exclusion?]
  cases reason with
  | enterprise => exact if_pos (isEnterprise_iff.2 h)
  | passpoint => rw [if_neg (mt isEnterprise_iff.1 h.1), if_pos (isPasspoint_iff.2 h.2)]
  | ephemeral =>
    rw [if_neg (mt isEnterprise_iff.1 h.1), if_neg (mt isPasspoint_iff.1 h.2.1)]
    exact if_pos h.2.2

theorem exclusion?_of_not_covers (h : ∀ rule : Exclusion, ¬rule.Covers p) :
    p.exclusion? = none := by
  rw [exclusion?, if_neg (mt isEnterprise_iff.1 (h _)), if_neg (mt isPasspoint_iff.1 (h _))]
  exact if_neg (h .ephemeral)

/-- Of the rules that cover a profile one is the first. -/
theorem exists_isFirst_or_not_covers (p : Profile) :
    (∃ reason : Exclusion, reason.IsFirst p) ∨ ∀ rule : Exclusion, ¬rule.Covers p := by
  by_cases henterprise : Exclusion.enterprise.Covers p
  · exact .inl ⟨.enterprise, henterprise⟩
  by_cases hpasspoint : Exclusion.passpoint.Covers p
  · exact .inl ⟨.passpoint, henterprise, hpasspoint⟩
  by_cases hephemeral : Exclusion.ephemeral.Covers p
  · exact .inl ⟨.ephemeral, henterprise, hpasspoint, hephemeral⟩
  refine .inr fun rule => ?_
  cases rule <;> assumption

theorem isEligible_iff_not_covers : p.isEligible = true ↔ ∀ rule : Exclusion, ¬rule.Covers p := by
  rw [isEligible, Option.isNone_iff_eq_none]
  constructor
  · intro hnone
    rcases p.exists_isFirst_or_not_covers with ⟨reason, hfirst⟩ | hnot
    · rw [exclusion?_of_isFirst hfirst] at hnone
      cases hnone
    · exact hnot
  · exact exclusion?_of_not_covers

end Profile

/-! ## Faults -/

namespace WepKeys

theorem anyFilled_iff (k : WepKeys) : k.anyFilled = true ↔ ∃ key, some key ∈ k.toList := by
  rw [anyFilled, List.any_eq_true]
  constructor
  · rintro ⟨slot, hslot, hfilled⟩
    obtain ⟨key, rfl⟩ := Option.isSome_iff_exists.1 hfilled
    exact ⟨key, hslot⟩
  · rintro ⟨key, hkey⟩
    exact ⟨some key, hkey, rfl⟩

/-- A slot that exists and holds no key is listed as empty. -/
theorem isFilled_eq_false_iff {k : WepKeys} {slot : Nat} (h : slot < count) :
    k.isFilled slot = false ↔ k.toList[slot]? = some none := by
  have hlength : slot < k.toList.length := h
  rw [isFilled, List.getElem?_eq_getElem hlength]
  simp

end WepKeys

namespace Profile

/-- The fault that is found in a profile: its network name is blank, or else, on a WEP network, the
transmission slot does not exist, or is empty although another one holds a key. -/
inductive Fails (p : Profile) : Invalid → Prop where
  | blank : (∀ c ∈ p.ssid.toList, Text.isBlank c = true) → p.Fails .emptySsid
  | noSlot : (∃ c ∈ p.ssid.toList, Text.isBlank c = false) → p.security = .wep →
    3 < p.wepTxKeyIndex.toNat → p.Fails (.wepKeyIndexOutOfRange p.wepTxKeyIndex)
  | noKey : (∃ c ∈ p.ssid.toList, Text.isBlank c = false) → p.security = .wep →
    (∃ key, some key ∈ p.wepKeys.toList) →
    p.wepKeys.toList[p.wepTxKeyIndex.toNat]? = some none →
    p.Fails (.missingWepTxKey p.wepTxKeyIndex)

/-- What is put out for a fault of a profile. -/
def sentence (p : Profile) : Invalid → String
  | .emptySsid => "SSID is empty"
  | .wepKeyIndexOutOfRange _ =>
    "WEP transmit key index " ++ toString p.wepTxKeyIndex.toNat ++ " is out of range"
  | .missingWepTxKey _ =>
    "WEP transmit key slot " ++ toString p.wepTxKeyIndex.toNat ++ " is empty"

variable {p : Profile} {fault : Invalid}

theorem Fails.message_eq (h : p.Fails fault) : fault.message = p.sentence fault := by
  cases h <;> rfl

theorem Fails.validate_eq (h : p.Fails fault) : p.validate = .error fault := by
  unfold validate
  cases h with
  | blank hblank => exact if_pos (Text.isAllBlank_eq_true_iff.2 hblank)
  | noSlot hname hwep hslot =>
    rw [Text.isAllBlank_eq_false_iff.2 hname, if_neg Bool.false_ne_true,
      if_neg (Decidable.not_not.2 hwep)]
    exact if_pos hslot
  | noKey hname hwep hfilled hempty =>
    have hslot : p.wepTxKeyIndex.toNat < WepKeys.count := (List.getElem?_eq_some_iff.1 hempty).1
    rw [Text.isAllBlank_eq_false_iff.2 hname, if_neg Bool.false_ne_true,
      if_neg (Decidable.not_not.2 hwep), if_neg (Nat.not_le.2 hslot),
      (WepKeys.anyFilled_iff _).2 hfilled, (WepKeys.isFilled_eq_false_iff hslot).2 hempty]
    rfl

/-- A profile is invalid exactly if it has a fault, and the fault is the reason. -/
theorem validate_eq_error_iff : p.validate = .error fault ↔ p.Fails fault := by
  refine ⟨fun h => ?_, Fails.validate_eq⟩
  unfold validate at h
  split at h
  · next hblank =>
    obtain rfl := Except.error.inj h
    exact .blank (Text.isAllBlank_eq_true_iff.1 hblank)
  · next hname =>
    have hname := Text.isAllBlank_eq_false_iff.1 (Bool.not_eq_true _ ▸ hname)
    split at h
    · cases h
    · next hwep =>
      have hwep := Decidable.not_not.1 hwep
      split at h
      · next hslot =>
        obtain rfl := Except.error.inj h
        exact .noSlot hname hwep hslot
      · next hslot =>
        split at h
        · next hkeys =>
          obtain rfl := Except.error.inj h
          rw [Bool.and_eq_true, Bool.not_eq_true'] at hkeys
          exact .noKey hname hwep ((WepKeys.anyFilled_iff _).1 hkeys.1)
            ((WepKeys.isFilled_eq_false_iff (Nat.not_le.1 hslot)).1 hkeys.2)
        · cases h

/-- A profile is valid exactly if its network name is not blank and, on a WEP network, the
transmission slot exists, and holds a key if any slot does. -/
theorem validate_eq_ok_iff :
    p.validate = .ok () ↔ Text.isAllBlank p.ssid = false ∧
      (p.security = .wep → p.wepTxKeyIndex.toNat < WepKeys.count ∧
        (p.wepKeys.anyFilled = true → p.wepKeys.isFilled p.wepTxKeyIndex.toNat = true)) := by
  constructor
  · intro hvalid
    have hsound : ∀ fault, ¬p.Fails fault := by
      intro fault hfails
      rw [hfails.validate_eq] at hvalid
      cases hvalid
    have hblank : Text.isAllBlank p.ssid = false :=
      Bool.eq_false_iff.2 fun h => hsound _ (.blank (Text.isAllBlank_eq_true_iff.1 h))
    have hname := Text.isAllBlank_eq_false_iff.1 hblank
    refine ⟨hblank, fun hwep => ?_⟩
    have hslot : p.wepTxKeyIndex.toNat < WepKeys.count :=
      Nat.not_le.1 fun h => hsound _ (.noSlot hname hwep h)
    refine ⟨hslot, fun hfilled => ?_⟩
    rw [← Bool.not_eq_false]
    intro hempty
    exact hsound _ (.noKey hname hwep ((WepKeys.anyFilled_iff _).1 hfilled)
      ((WepKeys.isFilled_eq_false_iff hslot).1 hempty))
  · rintro ⟨hblank, hkeys⟩
    cases hvalid : p.validate with
    | ok u => rfl
    | error fault =>
      exfalso
      cases validate_eq_error_iff.1 hvalid with
      | blank h =>
        rw [Text.isAllBlank_eq_true_iff.2 h] at hblank
        cases hblank
      | noSlot _ hwep hslot => exact Nat.not_lt.2 hslot (hkeys hwep).1
      | noKey _ hwep hfilled hempty =>
        obtain ⟨hslot, htransmit⟩ := hkeys hwep
        have htransmit := htransmit ((WepKeys.anyFilled_iff _).2 hfilled)
        rw [(WepKeys.isFilled_eq_false_iff hslot).2 hempty] at htransmit
        cases htransmit

end Profile

end WirelessArchive
