import WirelessArchive.Proofs.Archive.RoundTrip

/-!
# What comes out of a restore

Whatever the bytes of a backup, a restored profile is `WellFormed`: valid and eligible, with
credentials of its own security type only, and with none of what is never backed up.  The reader has
no single check for this; the parts come from the types of the members, from the choice of
credentials by security type, from `validate`, and from the rules of exclusion.
-/

namespace WirelessArchive

namespace Profile

/-- What holds of every profile that is restored. -/
structure WellFormed (p : Profile) : Prop where
  valid : p.validate = .ok ()
  eligible : p.exclusion? = none
  notEnterprise : p.security ≠ .eap
  noDomain : p.fqdn = none
  noProviderName : p.providerName = none
  notEphemeral : p.ephemeral = false
  noPreSharedKey : p.security ≠ .psk → p.preSharedKey = none
  noWepKeys : p.security ≠ .wep → p.wepKeys = {} ∧ p.wepTxKeyIndex = 0
  wepSlot : p.security = .wep → p.wepTxKeyIndex.toNat ≤ 3 ∧
    (p.wepKeys.anyFilled = true → p.wepKeys.isFilled p.wepTxKeyIndex.toNat = true)
  prefixLength : ∀ config link, p.ipConfig.assignment = .static config →
    config.linkAddress = some link →
    match link.address with
    | .v4 _ => link.prefixLength.toNat ≤ 32
    | .v6 _ => link.prefixLength.toNat ≤ 128

end Profile

/-- A profile that a record denotes is well-formed, unless a rule excludes it. -/
theorem Record.wellFormed_of_decode {v : Json} {p : Profile} (h : decode v = .ok p)
    (heligible : p.exclusion? = none) : p.WellFormed := by
  obtain ⟨r, -, hr⟩ := decode_eq_ok_iff.1 h
  obtain ⟨ipConfig, wepKeys, -, hslots, rfl, hvalid⟩ := toProfile_eq_ok_iff.1 hr
  obtain ⟨-, hslot⟩ := Profile.validate_eq_ok_iff.1 hvalid
  constructor
  case valid => exact hvalid
  case eligible => exact heligible
  case notEnterprise =>
    intro heap
    rw [Profile.exclusion?, heap] at heligible
    cases heligible
  case noDomain => rfl
  case noProviderName => rfl
  case notEphemeral => rfl
  case noPreSharedKey => exact fun hpsk => if_neg hpsk
  case noWepKeys => exact fun hwep => ⟨wepKeySlots_of_not_wep hwep hslots, if_neg hwep⟩
  case wepSlot => exact fun hwep => ⟨Nat.le_of_lt_succ (hslot hwep).1, (hslot hwep).2⟩
  case prefixLength =>
    intro config link _ _
    have hwidth := link.prefixLength_le
    cases hfamily : link.address with
    | v4 a =>
      rw [hfamily] at hwidth
      exact hwidth
    | v6 a =>
      rw [hfamily] at hwidth
      exact hwidth

/-! ## Backups -/

theorem profile?_ofJson_eq_some_iff {v : Json} {p : Profile} :
    (Outcome.ofJson v).profile? = some p ↔ Record.decode v = .ok p ∧ p.exclusion? = none := by
  unfold Outcome.ofJson
  cases Record.decode v with
  | error e => simp [Outcome.profile?]
  | ok q =>
    cases hq : q.exclusion? with
    | some reason =>
      simp only [hq]
      refine iff_of_false nofun ?_
      rintro ⟨hqp, hp⟩
      rw [← Except.ok.inj hqp, hq] at hp
      cases hp
    | none =>
      simp only [hq]
      constructor
      · intro h
        obtain rfl := Option.some.inj h
        exact ⟨rfl, hq⟩
      · rintro ⟨hqp, -⟩
        obtain rfl := Except.ok.inj hqp
        rfl

theorem wellFormed_of_accepted {settings : Settings} {blob : List UInt8} {report : Report}
    (h : (decode settings blob).report = .ok report) : ∀ p ∈ report.profiles, p.WellFormed := by
  cases h ▸ verdict settings blob with
  | accepted =>
    intro p hp
    obtain ⟨outcome, houtcome, hprofile⟩ := List.mem_filterMap.1 hp
    obtain ⟨v, -, rfl⟩ := List.mem_map.1 houtcome
    obtain ⟨hdecode, heligible⟩ := profile?_ofJson_eq_some_iff.1 hprofile
    exact Record.wellFormed_of_decode hdecode heligible

/-- Every profile that is restored from any bytes is well-formed. -/
theorem wellFormed_of_mem_profiles (settings : Settings) (blob : List UInt8) {report : Report}
    (h : (decode settings blob).report = .ok report) {p : Profile} (hp : p ∈ report.profiles) :
    p.WellFormed :=
  wellFormed_of_accepted h p hp

/-- A WEP network with a static address, transmitting with its last key. -/
def labNetwork : Profile :=
  { Profile.wep "lab" ⟨none, none, none, some "12345"⟩ 3 with
    ipConfig := ⟨.static { linkAddress := some ⟨.v4 ⟨10, 0, 0, 2⟩, 24, by decide⟩ }, .direct⟩ }

theorem wellFormed_labNetwork :
    (decode {} (encode {} [labNetwork]).blob).report =
        .ok { version := ⟨1, 0⟩, profiles := [labNetwork] } ∧
      labNetwork ∈ [labNetwork] ∧ labNetwork.WellFormed := by
  have hsize : (encode {} [labNetwork]).blob.length ≤ 1048576 := by decide +kernel
  have hsurvivors : survivors [labNetwork] = [labNetwork] := by decide +kernel
  have hreport := report_encode {} {} [labNetwork] hsize
  rw [hsurvivors] at hreport
  have hmem : labNetwork ∈ [labNetwork] := List.mem_singleton_self labNetwork
  exact ⟨hreport, hmem, wellFormed_of_mem_profiles {} _ hreport hmem⟩

end WirelessArchive
