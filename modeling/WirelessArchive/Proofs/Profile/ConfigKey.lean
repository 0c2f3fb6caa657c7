import WirelessArchive.Profile.ConfigKey

/-!
# Which profiles share a key

A key is a name with the label of a security type right behind it.  No label is the end of another
one, so that the name and the type can be told from the key although no mark divides them
(`append_label_inj`), and profiles share a key exactly if they share what their keys are made of
(`configKey_eq_iff`).
-/

namespace WirelessArchive

namespace Security

/-- No label is the end of another one. -/
theorem eq_of_label_suffix {a b : Security} (h : a.label.toList <:+ b.label.toList) : a = b := by
  revert h
  cases a <;> cases b <;> decide

/-- A name and a label are told from the text that they make, whatever the name ends with. -/
theorem append_label_inj {s t : String} {a b : Security} :
    s ++ a.label = t ++ b.label ↔ s = t ∧ a = b := by
  constructor
  · intro h
    have htext : s.toList ++ a.label.toList = t.toList ++ b.label.toList := by
      rw [← String.toList_append, h, String.toList_append]
    have ha : a.label.toList <:+ t.toList ++ b.label.toList := htext ▸ List.suffix_append ..
    obtain rfl : a = b := by
      rcases List.suffix_or_suffix_of_suffix ha (List.suffix_append ..) with hab | hba
      · exact eq_of_label_suffix hab
      · exact (eq_of_label_suffix hba).symm
    exact ⟨String.toList_inj.1 (List.append_cancel_right htext), rfl⟩
  · rintro ⟨rfl, rfl⟩
    rfl

end Security

namespace Profile

/-- What the key of a profile is made of: a name and a security type. -/
def identity (p : Profile) : String × Security :=
  if p.isPasspoint then (p.fqdn.getD "", .eap) else (p.ssid, p.security)

theorem identity_of_passpoint {p : Profile} (h : p.isPasspoint = true) :
    p.identity = (p.fqdn.getD "", .eap) := if_pos h

theorem identity_of_not_passpoint {p : Profile} (h : p.isPasspoint = false) :
    p.identity = (p.ssid, p.security) := by
  rw [identity, h, if_neg Bool.false_ne_true]

theorem configKey_eq (p : Profile) : p.configKey = ⟨p.identity.1 ++ p.identity.2.label⟩ := by
  rw [configKey, identity]
  split <;> rfl

/-- The key of a profile tells what it is made of. -/
theorem configKey_eq_iff {p q : Profile} : p.configKey = q.configKey ↔ p.identity = q.identity := by
  rw [configKey_eq, configKey_eq, ConfigKey.mk.injEq, Security.append_label_inj, Prod.ext_iff]

/-- A Passpoint profile names a provider domain, and not the empty one. -/
theorem isPasspoint_eq_true_iff {p : Profile} :
    p.isPasspoint = true ↔ ∃ domain, p.fqdn = some domain ∧ domain ≠ "" := by
  simp [isPasspoint, Option.any_eq_true]

theorem getD_fqdn_eq_iff {p : Profile} (h : p.isPasspoint = true) {name : String} :
    p.fqdn.getD "" = name ↔ p.fqdn = some name := by
  obtain ⟨domain, hdomain, -⟩ := isPasspoint_eq_true_iff.1 h
  simp [hdomain]

/-- When two profiles have the same key: by their names and types, by their provider domains, or by
the domain of one and the name of the other, which then is an enterprise network. -/
structure ToldApart (p q : Profile) : Prop where
  passpoint : p.isPasspoint = true ↔ ∃ domain, p.fqdn = some domain ∧ domain ≠ ""
  named : p.isPasspoint = false → q.isPasspoint = false →
    (p.configKey = q.configKey ↔ p.ssid = q.ssid ∧ p.security = q.security)
  provided : p.isPasspoint = true → q.isPasspoint = true →
    (p.configKey = q.configKey ↔ p.fqdn = q.fqdn)
  mixed : p.isPasspoint = true → q.isPasspoint = false →
    (p.configKey = q.configKey ↔ q.security = .eap ∧ p.fqdn = some q.ssid)
  apart : p.isPasspoint = false → p.security ≠ .eap →
    (q.isPasspoint = true ∨ q.security ≠ p.security) → p.configKey ≠ q.configKey

/-- Keys tell networks apart, whatever characters the names and domains hold. -/
theorem keys_toldApart (p q : Profile) : ToldApart p q where
  passpoint := isPasspoint_eq_true_iff
  named hp hq := by
    rw [configKey_eq_iff, identity_of_not_passpoint hp, identity_of_not_passpoint hq,
      Prod.mk.injEq]
  provided hp hq := by
    obtain ⟨domain, hdomain, -⟩ := isPasspoint_eq_true_iff.1 hq
    rw [configKey_eq_iff, identity_of_passpoint hp, identity_of_passpoint hq, Prod.mk.injEq,
      and_iff_left rfl, getD_fqdn_eq_iff hp, hdomain, Option.getD_some]
  mixed hp hq := by
    rw [configKey_eq_iff, identity_of_passpoint hp, identity_of_not_passpoint hq, Prod.mk.injEq,
      getD_fqdn_eq_iff hp, and_comm, eq_comm (a := Security.eap)]
  apart hp heap hq hkey := by
    rw [configKey_eq_iff, identity_of_not_passpoint hp] at hkey
    by_cases hpass : q.isPasspoint = true
    · rw [identity_of_passpoint hpass] at hkey
      exact heap (congrArg Prod.snd hkey)
    · rw [identity_of_not_passpoint (Bool.eq_false_iff.2 hpass)] at hkey
      exact (hq.resolve_left hpass) (congrArg Prod.snd hkey).symm

/-- A name that ends with a label is not taken for a shorter one with this label. -/
example : (Profile.unsecured "homeWPA_PSK").configKey ≠ (Profile.psk "home" "key").configKey := by
  decide +kernel

end Profile

end WirelessArchive
