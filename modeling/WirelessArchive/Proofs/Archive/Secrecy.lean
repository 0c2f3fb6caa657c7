import WirelessArchive.Proofs.Archive.Agreement
import WirelessArchive.Proofs.Archive.RoundTrip
import WirelessArchive.Proofs.Record.Masking

/-!
# Keys are not told

Two runs are compared that differ in keys alone.  A writer of two such lists of profiles tells the
same, up to the length of the text.  A reader of two such documents tells the same to the last event
and gives the same report up to the keys; it matters neither what else the records hold nor which of
them are lost.
-/

namespace WirelessArchive

/-! ## Writing -/

namespace Profile

theorem isValid_masked (p : Profile) : p.masked.isValid = p.isValid := by
  rw [isValid, validate_masked]
  rfl

theorem invalidEvent?_masked (p : Profile) : p.masked.invalidEvent? = p.invalidEvent? := by
  rw [invalidEvent?, validate_masked]
  rfl

end Profile

theorem exclusionEvents_masked (profiles : List Profile) :
    exclusionEvents (profiles.map Profile.masked) = exclusionEvents profiles :=
  List.filterMap_map

theorem eligible_masked (profiles : List Profile) :
    eligible (profiles.map Profile.masked) = (eligible profiles).map Profile.masked :=
  List.filter_map

theorem invalidEvents_masked (profiles : List Profile) :
    (profiles.map Profile.masked).filterMap Profile.invalidEvent? =
      profiles.filterMap Profile.invalidEvent? := by
  rw [List.filterMap_map]
  exact List.filterMap_congr fun p _ => p.invalidEvent?_masked

theorem length_written_masked (profiles : List Profile) :
    (written (profiles.map Profile.masked)).length = (written profiles).length := by
  have hvalid : Profile.isValid ∘ Profile.masked = Profile.isValid :=
    funext Profile.isValid_masked
  rw [written, eligible_masked, List.filter_map, List.length_map, hvalid]
  rfl

/-- The backups tell the same, up to the length that each has. -/
def Backup.ToldAlike (a b : Backup) : Prop :=
  ∃ told total kept, a.events = told ++ [.encoded total kept a.blob.length] ∧
    b.events = told ++ [.encoded total kept b.blob.length]

/-- What a backup tells is read off from the profiles without their keys. -/
theorem events_encode (settings : Settings) (profiles : List Profile) :
    (encode settings profiles).events =
      exclusionEvents (profiles.map Profile.masked) ++
        (eligible (profiles.map Profile.masked)).filterMap Profile.invalidEvent? ++
        [.encoded (profiles.map Profile.masked).length
          (written (profiles.map Profile.masked)).length (encode settings profiles).blob.length] := by
  rw [exclusionEvents_masked, eligible_masked, invalidEvents_masked, length_written_masked,
    List.length_map]
  rfl

theorem toldAlike_of_masked (settings : Settings) {ps qs : List Profile}
    (h : ps.map Profile.masked = qs.map Profile.masked) :
    (encode settings ps).ToldAlike (encode settings qs) := by
  refine ⟨_, _, _, events_encode settings ps, ?_⟩
  rw [h]
  exact events_encode settings qs

/-! ## Records -/

namespace Outcome

def masked : Outcome → Outcome
  | restored p => restored p.masked
  | o => o

@[simp]
theorem event?_masked (index : Nat) (o : Outcome) : o.masked.event? index = o.event? index := by
  cases o <;> rfl

@[simp]
theorem isDropped_masked (o : Outcome) : o.masked.isDropped = o.isDropped := by
  cases o <;> rfl

@[simp]
theorem isExcluded_masked (o : Outcome) : o.masked.isExcluded = o.isExcluded := by
  cases o <;> rfl

@[simp]
theorem profile?_masked (o : Outcome) : o.masked.profile? = o.profile?.map Profile.masked := by
  cases o <;> rfl

theorem ofJson_rekeyed {v v' : Json} (h : Record.Rekeyed v v') :
    (ofJson v).masked = (ofJson v').masked := by
  have hdecode := Record.decode_rekeyed h
  unfold ofJson
  generalize Record.decode v = d at hdecode ⊢
  generalize Record.decode v' = d' at hdecode ⊢
  -- no profile equals a failure, so both records fail or neither does
  cases d with
  | error reason =>
    cases d' with
    | error reason' => rw [Except.error.inj hdecode]
    | ok p' => cases hdecode
  | ok p =>
    cases d' with
    | error reason' => cases hdecode
    | ok p' =>
      have hp : p.masked = p'.masked := Except.ok.inj hdecode
      have hssid : p.ssid = p'.ssid := by rw [← p.ssid_masked, hp, p'.ssid_masked]
      have hexclusion : p.exclusion? = p'.exclusion? := by
        rw [← p.exclusion?_masked, hp, p'.exclusion?_masked]
      simp only [hssid, hexclusion]
      cases p'.exclusion? with
      | none => exact congrArg restored hp
      | some reason => rfl

end Outcome

theorem unknownFlagEvents_rekeyed {v v' : Json} (h : Record.Rekeyed v v') :
    unknownFlagEvents v = unknownFlagEvents v' := by
  have hread := Record.ofJson_rekeyed h
  unfold unknownFlagEvents
  generalize Record.ofJson v = r at hread
  generalize Record.ofJson v' = r' at hread
  cases hread with
  | error e => rfl
  | ok hr => simp only [Record.unknownFlags_of_sameMasked hr]

theorem recordEvents_rekeyed (index : Nat) {v v' : Json} (h : Record.Rekeyed v v') :
    recordEvents index v = recordEvents index v' := by
  rw [recordEvents, recordEvents, unknownFlagEvents_rekeyed h, ← Outcome.event?_masked,
    Outcome.ofJson_rekeyed h, Outcome.event?_masked]

theorem outcomes_rekeyed {networks networks' : List Json}
    (h : List.Forall₂ Record.Rekeyed networks networks') :
    (networks.map Outcome.ofJson).map Outcome.masked =
      (networks'.map Outcome.ofJson).map Outcome.masked := by
  induction h with
  | nil => rfl
  | cons hv _ ih => simp only [List.map_cons, ih, Outcome.ofJson_rekeyed hv]

/-! ## Reports -/

namespace Report

def masked (r : Report) : Report := { r with profiles := r.profiles.map Profile.masked }

theorem masked_ofOutcomes (version : Version) (outcomes : List Outcome) :
    (ofOutcomes version outcomes).masked = ofOutcomes version (outcomes.map Outcome.masked) := by
  have hprofile : Outcome.profile? ∘ Outcome.masked =
      fun o => o.profile?.map Profile.masked := funext Outcome.profile?_masked
  have hdropped : Outcome.isDropped ∘ Outcome.masked = Outcome.isDropped :=
    funext Outcome.isDropped_masked
  have hexcluded : Outcome.isExcluded ∘ Outcome.masked = Outcome.isExcluded :=
    funext Outcome.isExcluded_masked
  simp only [masked, ofOutcomes, List.filterMap_map, List.map_filterMap, List.countP_map, hprofile,
    hdropped, hexcluded]

@[simp]
theorem event_masked (r : Report) : r.masked.event = r.event := by
  rw [event, event, masked, List.length_map]

end Report

/-- The restores tell the same and give the same report up to the keys. -/
structure Restore.Alike (r r' : Restore) : Prop where
  events : r.events = r'.events
  report : r.report.map Report.masked = r'.report.map Report.masked

/-! ## Documents -/

namespace Envelope

def MemberRekeyed : Member → Json → Json → Prop
  | .networks => Json.ItemsAlike Record.Rekeyed
  | _ => Eq

/-- The keys in the records of a document may be replaced by others; all else that bears on it
stays. -/
abbrev Rekeyed : Json → Json → Prop := schema.Alike MemberRekeyed

theorem memberRekeyed_refl (m : Member) (x : Json) : MemberRekeyed m x x := by
  cases m <;> first | rfl | exact .same x

theorem memberRekeyed_eq : MemberRekeyed = MemberAlike Record.Rekeyed := by
  funext m
  cases m <;> rfl

end Envelope

variable {settings : Settings} {blob other : List UInt8} {root root' : Json}

theorem open_rekeyed (hsize : blob.length ≤ settings.maxBlobBytes.toNat)
    (hsize' : other.length ≤ settings.maxBlobBytes.toNat) (hread : Json.read blob = .ok root)
    (hread' : Json.read other = .ok root') (h : Envelope.Rekeyed root root') :
    OpensAlike Record.Rekeyed (readRoot settings blob >>= openEnvelope)
      (readRoot settings other >>= openEnvelope) :=
  open_agree .same hsize hsize' hread hread' (Envelope.memberRekeyed_eq ▸ h)

theorem decode_of_openedAlike
    (h : OpensAlike Record.Rekeyed (readRoot settings blob >>= openEnvelope)
      (readRoot settings other >>= openEnvelope)) :
    (decode settings blob).Alike (decode settings other) := by
  unfold decode
  generalize (readRoot settings blob >>= openEnvelope) = x at h
  generalize (readRoot settings other >>= openEnvelope) = x' at h
  cases h with
  | error e => exact ⟨rfl, rfl⟩
  | @ok version networks networks' h =>
    have hreport : (Report.ofOutcomes version (networks.map Outcome.ofJson)).masked =
        (Report.ofOutcomes version (networks'.map Outcome.ofJson)).masked := by
      rw [Report.masked_ofOutcomes, Report.masked_ofOutcomes, outcomes_rekeyed h]
    have hevent := congrArg Report.event hreport
    rw [Report.event_masked, Report.event_masked] at hevent
    refine ⟨?_, congrArg Except.ok hreport⟩
    simp only [events_congr (fun _ _ index => recordEvents_rekeyed index) h, hevent]

/-- Neither a backup nor a restore tells anything that depends on the keys. -/
theorem keys_untold (settings : Settings) :
    (∀ ps qs : List Profile, ps.map Profile.masked = qs.map Profile.masked →
      (encode settings ps).ToldAlike (encode settings qs)) ∧
    ∀ (blob other : List UInt8) (root root' : Json),
      blob.length ≤ settings.maxBlobBytes.toNat → other.length ≤ settings.maxBlobBytes.toNat →
      Json.read blob = .ok root → Json.read other = .ok root' → Envelope.Rekeyed root root' →
      (decode settings blob).Alike (decode settings other) :=
  ⟨fun _ _ h => toldAlike_of_masked settings h, fun _ _ _ _ hsize hsize' hread hread' h =>
    decode_of_openedAlike (open_rekeyed hsize hsize' hread hread' h)⟩

/-- Two networks that are written, one that is excluded and one that is invalid, all with keys. -/
def keyedProfiles (passphrase first second : String) : List Profile :=
  [Profile.psk "home" passphrase, Profile.wep "lab" { slot0 := first, slot2 := second } 2,
    { Profile.eap "corp" with preSharedKey := passphrase }, Profile.psk " " passphrase]

/-- A record with keys of two kinds. -/
def keyedRecord (passphrase first second : String) : Json :=
  .object
    [("ssid", .string "lab"), ("preSharedKey", .string passphrase), ("security", .string "WEP"),
      ("wepKeys", .array [.string first, .null, .string second])]

/-- A record with a number among its keys. -/
def brokenRecord (first : String) : Json :=
  .object
    [("ssid", .string "den"), ("security", .string "WEP"),
      ("wepKeys", .array [.string first, .natural 7])]

/-- The record of an enterprise network with a stray key. -/
def strayRecord (passphrase : String) : Json :=
  .object
    [("security", .string "EAP"), ("preSharedKey", .string passphrase), ("ssid", .string "corp")]

/-- A document with a network, a value that is no record, a record that is malformed and one that is
excluded. -/
def keyedDocument (passphrase first second : String) : Json :=
  .object
    [("format", .string "wifi-backup"), ("version", .string "1.0"),
      ("networks", .array
        [keyedRecord passphrase first second, .null, brokenRecord first, strayRecord passphrase])]

theorem rekeyed_keyedDocument (passphrase first second passphrase' first' second' : String) :
    Envelope.Rekeyed (keyedDocument passphrase first second)
      (keyedDocument passphrase' first' second') := by
  have hkey := Record.fields.key_injective
  have hrefl := Record.memberRekeyed_refl
  have hpassphrase : KeyReplaced (.string passphrase) (.string passphrase') := .string _ _
  have hkeys : KeysReplaced (.array [.string first, .null, .string second])
      (.array [.string first', .null, .string second']) :=
    .array (.cons (.string _ _) (.cons (.same _) (.cons (.string _ _) .nil)))
  have hbroken : KeysReplaced (.array [.string first, .natural 7])
      (.array [.string first', .natural 7]) :=
    .array (.cons (.string _ _) (.cons (.same _) .nil))
  have hrecord : Record.Rekeyed (keyedRecord passphrase first second)
      (keyedRecord passphrase' first' second') :=
    (Json.Schema.alike_replace hrefl hkey [_] _ (m := .preSharedKey) hpassphrase).trans
      Record.memberRekeyed_trans
      (Json.Schema.alike_replace hrefl hkey [_, _, _] [] (m := .wepKeys) hkeys)
  refine Json.Schema.alike_replace Envelope.memberRekeyed_refl Envelope.fields.key_injective [_, _]
    [] (m := .networks) (.array ?_)
  refine .cons hrecord (.cons (.same _) (.cons ?_ (.cons ?_ .nil)))
  · exact Json.Schema.alike_replace hrefl hkey [_, _] [] (m := .wepKeys) hbroken
  · exact Json.Schema.alike_replace hrefl hkey [_] _ (m := .preSharedKey) hpassphrase

theorem keys_untold_of_keyedDocument :
    (encode {} (keyedProfiles "clé" "12345" "abcde")).ToldAlike
      (encode {} (keyedProfiles "" "x" "y")) ∧
    (decode {} ((keyedDocument "clé" "12345" "abcde").print .compact)).report.map Report.masked =
      .ok
        { version := ⟨1, 0⟩
          profiles := [{ ssid := "lab", security := .wep, wepKeys := { slot0 := "", slot2 := "" } }]
          dropped := 2
          excluded := 1 } ∧
    (decode {} ((keyedDocument "clé" "12345" "abcde").print .compact)).Alike
      (decode {} ((keyedDocument "" "x" "y").print .indented)) := by
  have hfits : ∀ passphrase first second, Json.Fits 4 (keyedDocument passphrase first second) := by
    intro passphrase first second
    simp [keyedDocument, keyedRecord, brokenRecord, strayRecord, Json.fits_object_iff,
      Json.fits_array_iff, Json.fits_natural, Json.Fits.null, Json.Fits.string]
  have hread : ∀ layout passphrase first second,
      Json.read ((keyedDocument passphrase first second).print layout) =
        .ok (keyedDocument passphrase first second) :=
    fun layout passphrase first second =>
      Json.read_print layout ((hfits passphrase first second).mono (by decide))
  refine ⟨(keys_untold {}).1 _ _ rfl, ?_, (keys_untold {}).2 _ _ _ _ (by decide +kernel)
    (by decide +kernel) (hread _ _ _ _) (hread _ _ _ _) (rekeyed_keyedDocument _ _ _ _ _ _)⟩
  exact eq_ok_of_toOption (by decide +kernel)

end WirelessArchive
