import WirelessArchive.Archive.Encode
import WirelessArchive.Proofs.Archive.Verdict
import WirelessArchive.Proofs.Record.Profile

/-!
# Backups are read back

Of a list of profiles a backup keeps the `survivors`: what is left of those that are eligible and
valid.  They are all that its text depends on, and they are all that comes back from it: no record
is lost on the way, and different survivors never share a text.  A profile that a rule covers or
that has a fault leaves no survivor (`survivors_of_leftOut`), and may stand anywhere in the list.
-/

namespace WirelessArchive

open Json (Fits)

/-- What a backup keeps of a list of profiles, in their order. -/
def survivors (profiles : List Profile) : List Profile :=
  (profiles.filter fun p => p.isEligible && p.isValid).map Profile.restored

theorem Profile.isEligible_iff {p : Profile} : p.isEligible = true ↔ p.exclusion? = none :=
  Option.isNone_iff_eq_none

theorem Profile.isValid_iff {p : Profile} : p.isValid = true ↔ p.validate = .ok () := by
  unfold isValid
  cases p.validate <;> simp [Except.isOk, Except.toBool]

theorem written_eq (profiles : List Profile) :
    written profiles = profiles.filter fun p => p.isEligible && p.isValid := by
  rw [written, eligible, List.filter_filter]
  exact List.filter_congr fun p _ => Bool.and_comm _ _

theorem survivors_eq (profiles : List Profile) :
    survivors profiles = (written profiles).map Profile.restored := by
  rw [survivors, written_eq]

/-! ## What is left of a list -/

theorem survivors_append (ps qs : List Profile) :
    survivors (ps ++ qs) = survivors ps ++ survivors qs := by
  simp only [survivors, List.filter_append, List.map_append]

theorem survivors_insert (front back : List Profile) (p : Profile) :
    survivors (front ++ p :: back) = survivors front ++ (survivors [p] ++ survivors back) := by
  rw [← survivors_append [p], ← survivors_append]
  rfl

/-- Nothing is left of a profile that a rule covers or that has a fault. -/
theorem survivors_of_leftOut {p : Profile}
    (h : (∃ rule : Exclusion, rule.Covers p) ∨ ∃ fault, p.Fails fault) : survivors [p] = [] := by
  have hp : (p.isEligible && p.isValid) = false := by
    rw [Bool.and_eq_false_iff]
    rcases h with ⟨rule, hcovers⟩ | ⟨fault, hfails⟩
    · refine .inl (Bool.eq_false_iff.2 fun heligible => ?_)
      exact Profile.isEligible_iff_not_covers.1 heligible rule hcovers
    · right
      rw [Profile.isValid, hfails.validate_eq]
      rfl
  rw [survivors, List.filter_singleton, hp]
  rfl

/-- As much is left of what is left of a profile, unless a rule covers the profile. -/
theorem survivors_restored {p : Profile} (h : ∀ rule : Exclusion, ¬rule.Covers p) :
    survivors [p.restored] = survivors [p] := by
  have heligible := Profile.isEligible_iff_not_covers.2 h
  have hrestored : p.restored.isEligible = true :=
    Profile.isEligible_iff.2 (Profile.exclusion?_restored heligible)
  have hvalid : p.restored.isValid = p.isValid := by
    rw [Profile.isValid, Profile.validate_restored, Profile.isValid]
  rw [survivors, List.filter_singleton, hrestored, hvalid, survivors, List.filter_singleton,
    heligible]
  cases p.isValid with
  | true => exact congrArg (fun q => [q]) p.restored_restored
  | false => rfl

/-! ## Records -/

/-- The record of a profile that is written is restored. -/
theorem outcome_ofProfile {profiles : List Profile} {p : Profile} (hp : p ∈ written profiles) :
    Outcome.ofJson (Record.ofProfile p).toJson = .restored p.restored := by
  obtain ⟨hp, hvalid⟩ := List.mem_filter.1 hp
  obtain ⟨-, heligible⟩ := List.mem_filter.1 hp
  have hdecode : Record.decode (Record.ofProfile p).toJson = .ok p.restored := by
    rw [Record.decode_ofProfile, Profile.isValid_iff.1 hvalid]
  rw [Outcome.ofJson, hdecode]
  simp only [Profile.exclusion?_restored heligible]

theorem outcomes_written (profiles : List Profile) :
    ((written profiles).map fun p => (Record.ofProfile p).toJson).map Outcome.ofJson =
      (survivors profiles).map Outcome.restored := by
  rw [survivors_eq, List.map_map, List.map_map]
  exact List.map_congr_left fun p hp => outcome_ofProfile hp

/-- When every record is restored, the report tells of nothing else. -/
theorem ofOutcomes_restored (version : Version) (profiles : List Profile) :
    Report.ofOutcomes version (profiles.map Outcome.restored) = { version, profiles } := by
  have hprofile : Outcome.profile? ∘ Outcome.restored = some := rfl
  rw [Report.ofOutcomes, List.filterMap_map, hprofile, List.filterMap_some, List.countP_map,
    List.countP_map]
  simp [Outcome.isDropped, Outcome.isExcluded, Function.comp_def]

/-! ## Documents -/

theorem fits_document (profiles : List Profile) : Fits Json.maxDepth (document profiles) := by
  have hrecords : ∀ v ∈ profiles.map fun p => (Record.ofProfile p).toJson, Fits 3 v := by
    intro v hv
    obtain ⟨p, -, rfl⟩ := List.mem_map.1 hv
    exact (Record.ofProfile p).fits_toJson
  exact (Envelope.fits_toJson hrecords).mono (by decide)

/-- A document depends on nothing but what is left of its profiles. -/
theorem document_restored (profiles : List Profile) :
    document (profiles.map Profile.restored) = document profiles := by
  have hrecord : (fun p => (Record.ofProfile p).toJson) ∘ Profile.restored =
      fun p => (Record.ofProfile p).toJson :=
    funext fun p => congrArg Record.toJson (Record.ofProfile_restored p)
  rw [document, List.map_map, hrecord]
  rfl

/-- Equal documents are made of the same survivors. -/
theorem survivors_eq_of_document {ps qs : List Profile}
    (h : document (written ps) = document (written qs)) : survivors ps = survivors qs := by
  have henvelope := congrArg Envelope.ofJson h
  rw [document, document, Envelope.ofJson_toJson, Envelope.ofJson_toJson] at henvelope
  have hnetworks := congrArg Envelope.networks (Except.ok.inj henvelope)
  have houtcomes := congrArg (List.map Outcome.ofJson) hnetworks
  simp only [Envelope.current, outcomes_written] at houtcomes
  exact (List.map_inj_right fun _ _ => Outcome.restored.inj).1 houtcomes

/-- A document is of the current version and holds the records of its profiles. -/
theorem openEnvelope_document (profiles : List Profile) :
    openEnvelope (document profiles) =
      .ok (⟨1, 0⟩, profiles.map fun p => (Record.ofProfile p).toJson) := by
  rw [openEnvelope, document, Envelope.ofJson_toJson]
  simp only [Envelope.checkHeader_current]
  rfl

/-! ## Backups -/

theorem read_encode (settings : Settings) (profiles : List Profile) :
    Json.read (encode settings profiles).blob = .ok (document (written profiles)) :=
  Json.read_print settings.layout (fits_document _)

theorem open_encode (writer reader : Settings) (profiles : List Profile)
    (h : (encode writer profiles).blob.length ≤ reader.maxBlobBytes.toNat) :
    (readRoot reader (encode writer profiles).blob >>= openEnvelope) =
      .ok (⟨1, 0⟩, (written profiles).map fun p => (Record.ofProfile p).toJson) := by
  have hroot : readRoot reader (encode writer profiles).blob =
      .ok (document (written profiles)) := readRoot_of_holds ⟨h, read_encode writer profiles⟩
  rw [hroot, ← openEnvelope_document]
  rfl

theorem report_encode (writer reader : Settings) (profiles : List Profile)
    (h : (encode writer profiles).blob.length ≤ reader.maxBlobBytes.toNat) :
    (decode reader (encode writer profiles).blob).report =
      .ok { version := ⟨1, 0⟩, profiles := survivors profiles } := by
  rw [report_of_open (open_encode writer reader profiles h), outcomes_written, ofOutcomes_restored]

/-- Lists with the same survivors have the same backup. -/
theorem blob_of_survivors_eq (settings : Settings) {ps qs : List Profile}
    (h : survivors ps = survivors qs) : (encode settings ps).blob = (encode settings qs).blob := by
  have hdocument : document (written ps) = document (written qs) := by
    rw [← document_restored, ← document_restored (written qs), ← survivors_eq, ← survivors_eq, h]
  exact congrArg (Json.print settings.layout) hdocument

/-- A backup within the size limit of the reader gives back the survivors, whatever the layout. -/
theorem decode_encode (writer reader : Settings) (profiles : List Profile)
    (h : (encode writer profiles).blob.length ≤ reader.maxBlobBytes.toNat) :
    (decode reader (encode writer profiles).blob).report =
      .ok { version := ⟨1, 0⟩, profiles := survivors profiles, dropped := 0, excluded := 0 } :=
  report_encode writer reader profiles h

/-- Three profiles of which a backup keeps the first, without the stray key index. -/
def threeProfiles : List Profile :=
  [{ Profile.psk "home" "clé" with wepTxKeyIndex := 3 }, Profile.eap "office",
    Profile.unsecured " "]

theorem decode_encode_threeProfiles :
    (encode { prettyPrint := true } threeProfiles).blob.length ≤ 1048576 ∧
      (decode {} (encode { prettyPrint := true } threeProfiles).blob).report =
        .ok { version := ⟨1, 0⟩, profiles := [Profile.psk "home" "clé"] } := by
  have hsize : (encode { prettyPrint := true } threeProfiles).blob.length ≤ 1048576 := by
    decide +kernel
  have hsurvivors : survivors threeProfiles = [Profile.psk "home" "clé"] := by decide +kernel
  have h := decode_encode { prettyPrint := true } {} threeProfiles hsize
  rw [hsurvivors] at h
  exact ⟨hsize, h⟩

/-- Two lists share the text of their backups exactly if they have the same survivors.  So a profile
that is left out may stand anywhere, and of one that no rule covers only what is left matters. -/
theorem encode_blob_eq_iff (settings : Settings) (ps qs : List Profile) :
    ((encode settings ps).blob = (encode settings qs).blob ↔ survivors ps = survivors qs) ∧
    ∀ (front back : List Profile) (p : Profile),
      ((∃ rule : Exclusion, rule.Covers p) ∨ (∃ fault, p.Fails fault) →
        (encode settings (front ++ p :: back)).blob = (encode settings (front ++ back)).blob) ∧
      ((∀ rule : Exclusion, ¬rule.Covers p) →
        (encode settings (front ++ p :: back)).blob =
          (encode settings (front ++ p.restored :: back)).blob) := by
  refine ⟨⟨fun h => ?_, blob_of_survivors_eq settings⟩,
    fun front back p => ⟨fun h => ?_, fun h => ?_⟩⟩
  · exact survivors_eq_of_document
      (Json.print_injective settings.layout (fits_document _) (fits_document _) h)
  · refine blob_of_survivors_eq settings ?_
    rw [survivors_insert, survivors_of_leftOut h, List.nil_append, survivors_append]
  · refine blob_of_survivors_eq settings ?_
    rw [survivors_insert, survivors_insert, survivors_restored h]

/-- The other two profiles and the stray key index leave no trace in the backup. -/
theorem encode_blob_eq_threeProfiles :
    (encode {} threeProfiles).blob = (encode {} [Profile.psk "home" "clé"]).blob ∧
      Exclusion.enterprise.Covers (Profile.eap "office") ∧
      (Profile.unsecured " ").Fails .emptySsid := by
  have hrule : Exclusion.enterprise.Covers (Profile.eap "office") := rfl
  have hfault : (Profile.unsecured " ").Fails .emptySsid :=
    .blank (Text.isAllBlank_eq_true_iff.1 rfl)
  have hnone : ∀ rule : Exclusion,
      ¬rule.Covers { Profile.psk "home" "clé" with wepTxKeyIndex := 3 } := by
    intro rule hcovers
    cases rule with
    | enterprise => cases hcovers
    | passpoint =>
      obtain ⟨domain, hdomain, -⟩ := hcovers
      cases hdomain
    | ephemeral => cases hcovers
  refine ⟨?_, hrule, hfault⟩
  calc (encode {} threeProfiles).blob
    _ = (encode {} [{ Profile.psk "home" "clé" with wepTxKeyIndex := 3 },
          Profile.unsecured " "]).blob :=
      ((encode_blob_eq_iff {} [] []).2 [_] [_] (Profile.eap "office")).1 (.inl ⟨_, hrule⟩)
    _ = (encode {} [{ Profile.psk "home" "clé" with wepTxKeyIndex := 3 }]).blob :=
      ((encode_blob_eq_iff {} [] []).2 [_] [] (Profile.unsecured " ")).1 (.inr ⟨_, hfault⟩)
    _ = (encode {} [Profile.psk "home" "clé"]).blob :=
      ((encode_blob_eq_iff {} [] []).2 [] [] _).2 hnone

end WirelessArchive
