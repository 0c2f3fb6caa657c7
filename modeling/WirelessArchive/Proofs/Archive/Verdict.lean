import WirelessArchive.Archive.Decode
import WirelessArchive.Proofs.Archive.Envelope

/-!
# How a backup is judged

A backup is judged in stages: its size, its text, the shape of its root object, its header, and its
version.  The first stage that it fails decides the error (`Verdict`), and a backup that passes all
of them is accepted whatever its records hold.
-/

namespace WirelessArchive

open Envelope (IsEnvelope NamesVersion)

/-- The text keeps to the size limit and holds an object with these members. -/
structure Holds (settings : Settings) (blob : List UInt8) (members : List (String × Json)) :
    Prop where
  size : blob.length ≤ settings.maxBlobBytes.toNat
  text : Json.read blob = .ok (.object members)

/-- The outcomes of a restore, each with what leads to it. -/
inductive Verdict (settings : Settings) (blob : List UInt8) : Except ArchiveError Report → Prop
  | tooLarge : settings.maxBlobBytes.toNat < blob.length →
    Verdict settings blob (.error (.tooLarge blob.length settings.maxBlobBytes.toNat))
  | brokenFraming (detail : String) : blob.length ≤ settings.maxBlobBytes.toNat →
    (∀ members, Json.read blob ≠ .ok (.object members)) →
    Verdict settings blob (.error (.brokenFraming detail))
  | shape (detail : String) {members : List (String × Json)} : Holds settings blob members →
    ¬IsEnvelope members → Verdict settings blob (.error (.shape detail))
  | malformedHeader (detail : String) {members : List (String × Json)} :
    Holds settings blob members → IsEnvelope members → (∀ v, ¬NamesVersion members v) →
    Verdict settings blob (.error (.malformedHeader detail))
  | unsupportedVersion {members : List (String × Json)} {v : Version} :
    Holds settings blob members → IsEnvelope members → NamesVersion members v → v.major ≠ 1 →
    Verdict settings blob (.error (.unsupportedVersion v.text 1))
  | accepted {members : List (String × Json)} {v : Version} {networks : List Json} :
    Holds settings blob members → IsEnvelope members → NamesVersion members v → v.major = 1 →
    Json.member? members "networks" = some (.array networks) →
    Verdict settings blob (.ok (Report.ofOutcomes v (networks.map Outcome.ofJson)))

/-! ## The stages -/

theorem eq_ok_of_toOption {ε α : Type} {r : Except ε α} {a : α} (h : r.toOption = some a) :
    r = .ok a := by
  cases r with
  | error e => cases h
  | ok b => exact congrArg Except.ok (Option.some.inj h)

theorem report_of_open {settings : Settings} {blob : List UInt8} {v : Version}
    {networks : List Json} (h : (readRoot settings blob >>= openEnvelope) = .ok (v, networks)) :
    (decode settings blob).report = .ok (Report.ofOutcomes v (networks.map Outcome.ofJson)) := by
  rw [decode, h]

theorem report_of_error {settings : Settings} {blob : List UInt8} {e : ArchiveError}
    (h : (readRoot settings blob >>= openEnvelope) = .error e) :
    (decode settings blob).report = .error e := by
  rw [decode, h]

theorem decodeProfiles_of_ok {settings : Settings} {blob : List UInt8} {report : Report}
    (h : (decode settings blob).report = .ok report) :
    (decodeProfiles settings blob).1 = some report.profiles := by
  simp only [decodeProfiles, h]

theorem decodeProfiles_of_error {settings : Settings} {blob : List UInt8} {e : ArchiveError}
    (h : (decode settings blob).report = .error e) : (decodeProfiles settings blob).1 = none := by
  simp only [decodeProfiles, h]

theorem report_tooLarge {settings : Settings} {blob : List UInt8}
    (h : settings.maxBlobBytes.toNat < blob.length) :
    (decode settings blob).report =
      .error (.tooLarge blob.length settings.maxBlobBytes.toNat) := by
  have hroot : readRoot settings blob =
      .error (.tooLarge blob.length settings.maxBlobBytes.toNat) := if_pos h
  apply report_of_error
  rw [hroot]
  rfl

theorem report_brokenFraming {settings : Settings} {blob : List UInt8}
    (hsize : blob.length ≤ settings.maxBlobBytes.toNat)
    (h : ∀ members, Json.read blob ≠ .ok (.object members)) :
    ∃ detail, (decode settings blob).report = .error (.brokenFraming detail) := by
  have hroot : ∃ detail, readRoot settings blob = .error (.brokenFraming detail) := by
    unfold readRoot
    rw [if_neg (Nat.not_lt.2 hsize)]
    cases hread : Json.read blob with
    | error stop => exact ⟨_, rfl⟩
    | ok root =>
      cases root with
      | object members => exact absurd hread (h members)
      | _ => exact ⟨_, rfl⟩
  obtain ⟨detail, hroot⟩ := hroot
  refine ⟨detail, report_of_error ?_⟩
  rw [hroot]
  rfl

theorem readRoot_of_holds {settings : Settings} {blob : List UInt8}
    {members : List (String × Json)} (h : Holds settings blob members) :
    readRoot settings blob = .ok (.object members) := by
  rw [readRoot, if_neg (Nat.not_lt.2 h.size), h.text]

variable {settings : Settings} {blob : List UInt8} {members : List (String × Json)}

theorem report_shape (h : Holds settings blob members) (he : ¬IsEnvelope members) :
    ∃ detail, (decode settings blob).report = .error (.shape detail) := by
  cases hread : Envelope.ofJson (.object members) with
  | ok e => exact absurd (Envelope.isEnvelope_iff.2 ⟨e, hread⟩) he
  | error mismatch =>
    refine ⟨mismatch.message, report_of_error ?_⟩
    rw [readRoot_of_holds h]
    simp only [bind, Except.bind, openEnvelope, hread]

/-- An envelope is as good as its header. -/
theorem open_of_envelope (h : Holds settings blob members) {e : Envelope}
    (he : Envelope.ofJson (.object members) = .ok e) :
    (readRoot settings blob >>= openEnvelope) = e.checkHeader.map (·, e.networks) := by
  rw [readRoot_of_holds h]
  simp only [bind, Except.bind, openEnvelope, he]

theorem report_malformedHeader (h : Holds settings blob members) (he : IsEnvelope members)
    (hv : ∀ v, ¬NamesVersion members v) :
    ∃ detail, (decode settings blob).report = .error (.malformedHeader detail) := by
  obtain ⟨e, he⟩ := Envelope.isEnvelope_iff.1 he
  cases hheader : e.headerVersion with
  | ok v => exact absurd ((Envelope.namesVersion_iff he).2 hheader) (hv v)
  | error fault =>
    refine ⟨fault.message, report_of_error ?_⟩
    rw [open_of_envelope h he, Envelope.checkHeader, hheader]
    rfl

theorem report_unsupportedVersion (h : Holds settings blob members) (he : IsEnvelope members)
    {v : Version} (hv : NamesVersion members v) (hmajor : v.major ≠ 1) :
    (decode settings blob).report = .error (.unsupportedVersion v.text 1) := by
  obtain ⟨e, he⟩ := Envelope.isEnvelope_iff.1 he
  have hheader := (Envelope.namesVersion_iff he).1 hv
  have hreadable : v.isReadable = false := beq_false_of_ne hmajor
  apply report_of_error
  rw [open_of_envelope h he, Envelope.checkHeader, hheader]
  simp only [hreadable]
  rfl

/-- What is accepted opens as the records it lists, under the version that it names. -/
theorem open_accepted (h : Holds settings blob members) (he : IsEnvelope members)
    {v : Version} (hv : NamesVersion members v) (hmajor : v.major = 1) {networks : List Json}
    (hnetworks : Json.member? members "networks" = some (.array networks)) :
    (readRoot settings blob >>= openEnvelope) = .ok (v, networks) := by
  obtain ⟨e, he⟩ := Envelope.isEnvelope_iff.1 he
  have hheader : e.checkHeader = .ok v :=
    Envelope.checkHeader_eq_ok_iff.2 ⟨(Envelope.namesVersion_iff he).1 hv, hmajor⟩
  have hhas : Envelope.Has e .networks (Json.member? members "networks") :=
    (Envelope.ofJson_object_iff.1 he).1 .networks
  have hrecords : e.networks = networks := by
    rw [hnetworks] at hhas
    exact (Except.ok.inj ((Envelope.asList_ok networks).symm.trans hhas)).symm
  rw [open_of_envelope h he, hheader, hrecords]
  rfl

theorem report_accepted (h : Holds settings blob members) (he : IsEnvelope members)
    {v : Version} (hv : NamesVersion members v) (hmajor : v.major = 1) {networks : List Json}
    (hnetworks : Json.member? members "networks" = some (.array networks)) :
    (decode settings blob).report = .ok (Report.ofOutcomes v (networks.map Outcome.ofJson)) :=
  report_of_open (open_accepted h he hv hmajor hnetworks)

/-! ## The verdict -/

/-- Every backup is judged by the first stage that it fails, or else accepted. -/
theorem verdict (settings : Settings) (blob : List UInt8) :
    Verdict settings blob (decode settings blob).report := by
  by_cases hsize : blob.length ≤ settings.maxBlobBytes.toNat
  · by_cases htext : ∃ members, Json.read blob = .ok (.object members)
    · obtain ⟨members, htext⟩ := htext
      have h : Holds settings blob members := ⟨hsize, htext⟩
      by_cases he : IsEnvelope members
      · by_cases hv : ∃ v, NamesVersion members v
        · obtain ⟨v, hv⟩ := hv
          by_cases hmajor : v.major = 1
          · obtain ⟨networks, hnetworks⟩ := he.networks
            rw [report_accepted h he hv hmajor hnetworks]
            exact .accepted h he hv hmajor hnetworks
          · rw [report_unsupportedVersion h he hv hmajor]
            exact .unsupportedVersion h he hv hmajor
        · rw [not_exists] at hv
          obtain ⟨detail, hreport⟩ := report_malformedHeader h he hv
          rw [hreport]
          exact .malformedHeader detail h he hv
      · obtain ⟨detail, hreport⟩ := report_shape h he
        rw [hreport]
        exact .shape detail h he
    · rw [not_exists] at htext
      obtain ⟨detail, hreport⟩ := report_brokenFraming hsize htext
      rw [hreport]
      exact .brokenFraming detail hsize htext
  · rw [Nat.not_le] at hsize
    rw [report_tooLarge hsize]
    exact .tooLarge hsize

theorem holds_unique {other : List (String × Json)} (h : Holds settings blob members)
    (ho : Holds settings blob other) : other = members :=
  Json.object.inj (Except.ok.inj (ho.text.symm.trans h.text))

/-- The outcome of a restore and its cause determine each other.  Every stage is reached only by
what passes the stages before it, the records play no part, and the caller that is only given
profiles learns whether there was an error. -/
structure IsClassified (settings : Settings) (blob : List UInt8) : Prop where
  tooLarge : (∃ size limit, (decode settings blob).report = .error (.tooLarge size limit)) ↔
    settings.maxBlobBytes.toNat < blob.length
  brokenFraming : (∃ detail, (decode settings blob).report = .error (.brokenFraming detail)) ↔
    blob.length ≤ settings.maxBlobBytes.toNat ∧ ∀ members, Json.read blob ≠ .ok (.object members)
  shape : (∃ detail, (decode settings blob).report = .error (.shape detail)) ↔
    ∃ members, Holds settings blob members ∧ ¬IsEnvelope members
  malformedHeader :
    (∃ detail, (decode settings blob).report = .error (.malformedHeader detail)) ↔
      ∃ members, Holds settings blob members ∧ IsEnvelope members ∧ ∀ v, ¬NamesVersion members v
  unsupportedVersion :
    (∃ found supported,
      (decode settings blob).report = .error (.unsupportedVersion found supported)) ↔
        ∃ members v, Holds settings blob members ∧ IsEnvelope members ∧ NamesVersion members v ∧
          v.major ≠ 1
  accepted : ∀ v, (∃ report, (decode settings blob).report = .ok report ∧ report.version = v) ↔
    ∃ members, Holds settings blob members ∧ IsEnvelope members ∧ NamesVersion members v ∧
      v.major = 1
  noOtherError : ∀ e, (decode settings blob).report = .error e →
    (∀ detail, e ≠ .settings detail) ∧ (∀ detail, e ≠ .file detail) ∧
      ∀ index reason, e ≠ .corruptRecord index reason
  anyRecords : ∀ other members members', Holds settings blob members →
    Holds settings other members' →
    Json.member? members' "format" = Json.member? members "format" →
    Json.member? members' "version" = Json.member? members "version" →
    (∃ networks, Json.member? members' "networks" = some (.array networks)) →
    ∀ report, (decode settings blob).report = .ok report →
      ∃ report', (decode settings other).report = .ok report' ∧ report'.version = report.version
  noProfiles : (decodeProfiles settings blob).1 = none ↔
    ∃ e, (decode settings blob).report = .error e

/-- Every outcome is classified by its cause. -/
theorem decode_isClassified (settings : Settings) (blob : List UInt8) :
    IsClassified settings blob where
  tooLarge := by
    refine ⟨?_, fun h => ⟨_, _, report_tooLarge h⟩⟩
    rintro ⟨size, limit, e⟩
    cases e ▸ verdict settings blob with
    | tooLarge h => exact h
  brokenFraming := by
    refine ⟨?_, fun h => report_brokenFraming h.1 h.2⟩
    rintro ⟨detail, e⟩
    cases e ▸ verdict settings blob with
    | brokenFraming _ hsize h => exact ⟨hsize, h⟩
  shape := by
    refine ⟨?_, fun ⟨_, h, he⟩ => report_shape h he⟩
    rintro ⟨detail, e⟩
    cases e ▸ verdict settings blob with
    | shape _ h he => exact ⟨_, h, he⟩
  malformedHeader := by
    refine ⟨?_, fun ⟨_, h, he, hv⟩ => report_malformedHeader h he hv⟩
    rintro ⟨detail, e⟩
    cases e ▸ verdict settings blob with
    | malformedHeader _ h he hv => exact ⟨_, h, he, hv⟩
  unsupportedVersion := by
    refine ⟨?_, fun ⟨_, v, h, he, hv, hmajor⟩ =>
      ⟨v.text, 1, report_unsupportedVersion h he hv hmajor⟩⟩
    rintro ⟨found, supported, e⟩
    cases e ▸ verdict settings blob with
    | unsupportedVersion h he hv hmajor => exact ⟨_, _, h, he, hv, hmajor⟩
  accepted v := by
    constructor
    · rintro ⟨report, e, rfl⟩
      cases e ▸ verdict settings blob with
      | accepted h he hv hmajor _ => exact ⟨_, h, he, hv, hmajor⟩
    · rintro ⟨members, h, he, hv, hmajor⟩
      obtain ⟨networks, hnetworks⟩ := he.networks
      exact ⟨_, report_accepted h he hv hmajor hnetworks, rfl⟩
  noOtherError e he := by
    cases he ▸ verdict settings blob <;> exact ⟨nofun, nofun, nofun⟩
  anyRecords other members members' h ho hformat hversion hnetworks report e := by
    cases e ▸ verdict settings blob with
    | accepted h' he hv hmajor _ =>
      obtain rfl := holds_unique h h'
      obtain ⟨networks, hnetworks⟩ := hnetworks
      have he' : IsEnvelope members' :=
        ⟨⟨networks, hnetworks⟩, hformat ▸ he.format, hversion ▸ he.version⟩
      have hv' := NamesVersion.mk (hformat.trans hv.format) (hversion ▸ hv.version)
      exact ⟨_, report_accepted ho he' hv' hmajor hnetworks, rfl⟩
  noProfiles := by
    cases hreport : (decode settings blob).report with
    | ok report => simp [decodeProfiles, hreport]
    | error e => simp [decodeProfiles, hreport]

end WirelessArchive
