import WirelessArchive.Proofs.Archive.WellFormed

/-!
# A restore is a fixed point

A restored profile is well-formed, whoever wrote the backup, and of a well-formed profile a backup
keeps everything (`restored_eq`).  Backing up what was restored therefore leaves nothing out and
changes nothing: one pass through a backup is enough, and every later one gives the same profiles
and the same bytes.
-/

namespace WirelessArchive

namespace Profile.WellFormed

variable {p : Profile}

theorem isEligible (h : p.WellFormed) : p.isEligible = true := isEligible_iff.2 h.eligible

theorem isValid (h : p.WellFormed) : p.isValid = true := isValid_iff.2 h.valid

/-- Nothing of a well-formed profile is left behind. -/
theorem restored_eq (h : p.WellFormed) : p.restored = p := by
  have hkey : (if p.security = .psk then p.preSharedKey else none) = p.preSharedKey := by
    split
    · rfl
    · next hpsk => exact (h.noPreSharedKey hpsk).symm
  have hkeys : (if p.security = .wep then p.wepKeys else {}) = p.wepKeys := by
    split
    · rfl
    · next hwep => exact (h.noWepKeys hwep).1.symm
  have hslot : (if p.security = .wep then p.wepTxKeyIndex else 0) = p.wepTxKeyIndex := by
    split
    · rfl
    · next hwep => exact (h.noWepKeys hwep).2.symm
  have hdomain := h.noDomain
  have hname := h.noProviderName
  have hephemeral := h.notEphemeral
  cases p
  simp only [restored, Profile.mk.injEq, true_and, and_true]
  exact ⟨hkey, hkeys, hslot, hdomain.symm, hname.symm, hephemeral.symm⟩

end Profile.WellFormed

/-! ## Backups of well-formed profiles -/

section WellFormed

variable {profiles : List Profile} (h : ∀ p ∈ profiles, p.WellFormed)

include h

theorem eligible_of_wellFormed : eligible profiles = profiles :=
  List.filter_eq_self.2 fun p hp => (h p hp).isEligible

theorem written_of_wellFormed : written profiles = profiles := by
  rw [written, eligible_of_wellFormed h]
  exact List.filter_eq_self.2 fun p hp => (h p hp).isValid

theorem survivors_of_wellFormed : survivors profiles = profiles := by
  rw [survivors_eq, written_of_wellFormed h]
  exact (List.map_congr_left fun p hp => (h p hp).restored_eq).trans (List.map_id _)

/-- Nothing is told of a profile that is left out. -/
theorem events_of_wellFormed (settings : Settings) :
    (encode settings profiles).events =
      [.encoded profiles.length profiles.length (encode settings profiles).blob.length] := by
  have hexcluded : exclusionEvents profiles = [] := by
    refine List.filterMap_eq_nil_iff.2 fun p hp => ?_
    rw [Profile.exclusionEvent?, (h p hp).eligible]
    rfl
  have hinvalid : profiles.filterMap Profile.invalidEvent? = [] := by
    refine List.filterMap_eq_nil_iff.2 fun p hp => ?_
    rw [Profile.invalidEvent?, (h p hp).valid]
  simp only [encode, hexcluded, eligible_of_wellFormed h, hinvalid, written_of_wellFormed h,
    List.nil_append]

end WellFormed

/-! ## Stability -/

/-- A backup of the profiles holds them all and tells of no other; restored, it gives these very
profiles, which are backed up in the same way. -/
structure Stable (writer : Settings) (profiles : List Profile) : Prop where
  records : ∃ members networks,
    Json.read (encode writer profiles).blob = .ok (.object members) ∧
      Json.member? members "networks" = some (.array networks) ∧
      networks.length = profiles.length
  events : (encode writer profiles).events =
    [.encoded profiles.length profiles.length (encode writer profiles).blob.length]
  restored : ∀ reader : Settings,
    (encode writer profiles).blob.length ≤ reader.maxBlobBytes.toNat →
    ∃ report, (decode reader (encode writer profiles).blob).report = .ok report ∧
      report.profiles = profiles ∧ report.dropped = 0 ∧ report.excluded = 0 ∧
      encode writer report.profiles = encode writer profiles

theorem stable_of_wellFormed (writer : Settings) {profiles : List Profile}
    (h : ∀ p ∈ profiles, p.WellFormed) : Stable writer profiles where
  records := by
    have hread := read_encode writer profiles
    rw [written_of_wellFormed h, document] at hread
    exact ⟨_, _, hread, rfl, List.length_map _⟩
  events := events_of_wellFormed h writer
  restored reader hsize := by
    have hreport := report_encode writer reader profiles hsize
    rw [survivors_of_wellFormed h] at hreport
    exact ⟨_, hreport, rfl, rfl, rfl, rfl⟩

/-- What was restored from any bytes is stable, and a backup that is restored and written again
stays as it was. -/
theorem stable_restored :
    (∀ settings blob report, (decode settings blob).report = .ok report →
      ∀ writer, Stable writer report.profiles) ∧
    ∀ (writer reader : Settings) (profiles : List Profile),
      (encode writer profiles).blob.length ≤ reader.maxBlobBytes.toNat →
      ∃ report, (decode reader (encode writer profiles).blob).report = .ok report ∧
        (encode writer report.profiles).blob = (encode writer profiles).blob := by
  constructor
  · intro settings blob report h writer
    exact stable_of_wellFormed writer (wellFormed_of_accepted h)
  · intro writer reader profiles hsize
    have hreport := report_encode writer reader profiles hsize
    have hsurvivors := survivors_of_wellFormed (wellFormed_of_accepted hreport)
    exact ⟨_, hreport, blob_of_survivors_eq writer hsurvivors⟩

/-- A backup of another writer, with its members in another order: a WEP record with a short list of
keys and no index, and a record with an unknown flag and addresses in unusual forms. -/
def foreignBackup : List UInt8 :=
  Json.print .indented <| .object
    [("networks", .array
        [.object [("wepKeys", .array [.string "12345", .null]), ("security", .string "WEP"),
            ("ssid", .string "lab")],
          .object [("ssid", .string "home"), ("security", .string "PSK"),
            ("allowedProtocols", .strings ["WPA3", "RSN", "WPA", "RSN"]),
            ("ipConfiguration", .object
              [("gateway", .string "FE80:0::1"), ("assignment", .string "STATIC"),
                ("linkAddress", .string "::ffff:10.0.0.2/+064"), ("proxyPort", .natural 8080)])]]),
      ("version", .string "+1.007"), ("format", .string "wifi-backup")]

/-- What is restored from it. -/
def foreignProfiles : List Profile :=
  [{ ssid := "lab", security := .wep, wepKeys := { slot0 := some "12345" } },
    { ssid := "home"
      security := .psk
      protocols := .ofList [.wpa, .rsn]
      ipConfig.assignment := .static
        { linkAddress := some
            ⟨.v6 ⟨[0, 0, 0, 0, 0, 0xFFFF, 0x0A00, 2], by decide⟩, 64, by decide⟩
          gateway := some (.v6 ⟨[0xFE80, 0, 0, 0, 0, 0, 0, 1], by decide⟩) } }]

theorem stable_foreignProfiles :
    (decode {} foreignBackup).report = .ok { version := ⟨1, 7⟩, profiles := foreignProfiles } ∧
      Stable { prettyPrint := true } foreignProfiles ∧
      (encode {} foreignProfiles).blob.length ≤ 1048576 ∧
      ∃ report, (decode {} (encode {} foreignProfiles).blob).report = .ok report ∧
        (encode {} report.profiles).blob = (encode {} foreignProfiles).blob := by
  have hreport : (decode {} foreignBackup).report =
      .ok { version := ⟨1, 7⟩, profiles := foreignProfiles } :=
    eq_ok_of_toOption (by decide +kernel)
  have hsize : (encode {} foreignProfiles).blob.length ≤ 1048576 := by decide +kernel
  exact ⟨hreport, stable_restored.1 {} foreignBackup _ hreport { prettyPrint := true }, hsize,
    stable_restored.2 {} {} foreignProfiles hsize⟩

end WirelessArchive
