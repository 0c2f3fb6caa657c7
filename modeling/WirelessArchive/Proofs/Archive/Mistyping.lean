import WirelessArchive.Proofs.Archive.Accounting
import WirelessArchive.Proofs.Archive.Agreement
import WirelessArchive.Proofs.Json.RoundTrip
import WirelessArchive.Proofs.Record.Mistyping

/-!
# Mistyped keys are told

Of keys that are strings nothing is told.  Of a scalar of another type in the place of one there is:
the record is dropped, and the reason describes the scalar, such as a number that was meant as a
passphrase (`passphrase_echoed`).

Two restores are compared, of documents that differ in such a scalar alone.  Both give the same
report, and tell the same but for the reason for which this record is dropped.  The reason is the
same, too, if a fault of the record is met first; the descriptions of the two scalars are all that
can tell the restores apart (`mistyping_told`).
-/

namespace WirelessArchive

/-! ## A record that is malformed -/

section Malformed

variable {v : Json} {e : Json.Mismatch}

theorem Outcome.ofJson_of_malformed (h : Record.ofJson v = .error e) :
    ofJson v = .dropped (.malformed e.message) := by
  rw [ofJson, Record.decode, h]

theorem recordEvents_of_malformed (index : Nat) (h : Record.ofJson v = .error e) :
    recordEvents index v = [.dropped index (.malformed e.message)] := by
  rw [recordEvents, Outcome.ofJson_of_malformed h, unknownFlagEvents, h]
  rfl

/-- All that is told of a document with such a record, the last event included. -/
theorem events_of_malformed (h : Record.ofJson v = .error e) (front back : List Json)
    (last : Event) :
    ((front ++ v :: back).zipIdx.flatMap fun (v, index) => recordEvents index v) ++ [last] =
      (front.zipIdx.flatMap fun (v, index) => recordEvents index v) ++
        .dropped front.length (.malformed e.message) ::
          (((back.zipIdx (front.length + 1)).flatMap fun (v, index) => recordEvents index v) ++
            [last]) := by
  rw [List.zipIdx_append, List.zipIdx_cons, List.flatMap_append, List.flatMap_cons, Nat.zero_add]
  simp only [recordEvents_of_malformed _ h, List.append_assoc, List.cons_append, List.nil_append]

end Malformed

/-! ## Two restores -/

/-- The restores give the same report and tell the same, but for the details of why the record at
an index is malformed. -/
structure Restore.AlikeBut (index : Nat) (detail detail' : String) (r r' : Restore) : Prop where
  report : r.report = r'.report
  events : ∃ before after, r.events = before ++ .dropped index (.malformed detail) :: after ∧
    r'.events = before ++ .dropped index (.malformed detail') :: after

theorem Restore.AlikeBut.events_eq_iff {index : Nat} {detail detail' : String} {r r' : Restore}
    (h : r.AlikeBut index detail detail' r') : r.events = r'.events ↔ detail = detail' := by
  obtain ⟨before, after, hr, hr'⟩ := h.events
  rw [hr, hr', List.append_cancel_left_eq, List.cons.injEq, Event.dropped.injEq,
    RecordError.malformed.injEq]
  simp

section Documents

variable {settings : Settings} {blob other : List UInt8} {header : List (String × Json)}
  {report : Report}

/-- Documents that agree but for a record that is malformed in both are restored alike. -/
theorem alikeBut_of_malformed {front back : List Json} {v v' : Json} {e e' : Json.Mismatch}
    (haccepted : (decode settings blob).report = .ok report)
    (hblob : Bears settings blob header (front ++ v :: back))
    (hother : Bears settings other header (front ++ v' :: back))
    (hv : Record.ofJson v = .error e) (hv' : Record.ofJson v' = .error e') :
    (decode settings blob).AlikeBut front.length e.message e'.message (decode settings other) := by
  obtain ⟨version, hversion, hmajor⟩ := hblob.exists_version haccepted
  have hcounts : (Outcome.ofJson v).CountsAlike (Outcome.ofJson v') := by
    rw [Outcome.ofJson_of_malformed hv, Outcome.ofJson_of_malformed hv']
    exact ⟨rfl, rfl, rfl⟩
  have hreport : Report.ofOutcomes version ((front ++ v :: back).map Outcome.ofJson) =
      Report.ofOutcomes version ((front ++ v' :: back).map Outcome.ofJson) := by
    simp only [Report.ofOutcomes, List.map_append, List.map_cons, List.filterMap_append,
      List.filterMap_cons, List.countP_append, List.countP_cons, hcounts.profile?,
      hcounts.isDropped, hcounts.isExcluded]
  rw [decode_of_bears hblob hversion hmajor, decode_of_bears hother hversion hmajor, hreport]
  exact ⟨rfl, _, _, events_of_malformed hv front back _, events_of_malformed hv' front back _⟩

/-- Documents that differ in a mistyped key alone are restored alike but for the reason of one
dropped record.  It describes the mistyped value, unless something before it is at fault. -/
theorem mistyping_told (front back : List Json) {place : KeyPlace} {v v' : Json}
    {members members' : List (String × Json)}
    (haccepted : (decode settings blob).report = .ok report)
    (hblob : Bears settings blob header (front ++ .object members :: back))
    (hother : Bears settings other header (front ++ .object members' :: back))
    (h : Record.Retyped place v v' members members') :
    ∃ detail detail',
      (decode settings blob).AlikeBut front.length detail detail' (decode settings other) ∧
      (place.FaultBefore members → detail = detail') ∧
      (¬place.FaultBefore members → detail = place.refusal v ∧ detail' = place.refusal v') ∧
      ((decode settings blob).events = (decode settings other).events ↔
        place.FaultBefore members ∨ v.describe = v'.describe) := by
  obtain ⟨e, e', he, he', hfault, hnofault⟩ := Record.exists_ofJson_of_retyped h
  have halike := alikeBut_of_malformed haccepted hblob hother he he'
  refine ⟨e.message, e'.message, halike, hfault, hnofault, ?_⟩
  rw [halike.events_eq_iff]
  by_cases hbefore : place.FaultBefore members
  · exact iff_of_true (hfault hbefore) (Or.inl hbefore)
  · obtain ⟨hdetail, hdetail'⟩ := hnofault hbefore
    rw [hdetail, hdetail', KeyPlace.refusal_inj, or_iff_right hbefore]

end Documents

/-! ## Documents with mistyped keys -/

/-- A record with something in the place of the passphrase, and something among the keys. -/
def mistypedMembers (passphrase second : Json) : List (String × Json) :=
  [("wepKeys", .array [.string "12345", second, .null]), ("ssid", .string "lab"),
    ("preSharedKey", passphrase), ("security", .string "WEP")]

/-- The records of a document, of which one is excluded. -/
def mistypedRecords (passphrase second : Json) : List Json :=
  [.object [("ssid", .string "corp"), ("security", .string "EAP")],
    .object (mistypedMembers passphrase second),
    .object [("ssid", .string "home"), ("security", .string "PSK")]]

def mistypedHeader : List (String × Json) :=
  [("format", .string "wifi-backup"), ("version", .string "1.0")]

/-- The text of the document. -/
def mistypedBackup (passphrase second : Json) : List UInt8 :=
  Json.print .compact
    (.object (mistypedHeader ++ [("networks", .array (mistypedRecords passphrase second))]))

theorem bears_mistypedBackup {passphrase second : Json} (hpassphrase : Json.Fits 1 passphrase)
    (hsecond : Json.Fits 0 second)
    (hsize : (mistypedBackup passphrase second).length ≤ 1048576) :
    Bears {} (mistypedBackup passphrase second) mistypedHeader
      (mistypedRecords passphrase second) := by
  refine ⟨_, ⟨hsize, Json.read_print .compact (Json.Fits.mono (n := 4) ?_ (by decide))⟩, rfl, rfl,
    rfl⟩
  simp [mistypedHeader, mistypedRecords, mistypedMembers, Json.fits_object_iff, Json.fits_array_iff,
    Json.Fits.null, Json.Fits.string, hpassphrase.mono, hsecond.mono]

/-- The report on the document if the record is dropped. -/
def mistypedReport : Report :=
  { version := ⟨1, 0⟩
    profiles := [{ ssid := "home", security := .psk }]
    dropped := 1
    excluded := 1 }

/-- What is told of the document, and reported, if the record is malformed. -/
theorem decode_mistypedBackup {passphrase second : Json}
    (h : Bears {} (mistypedBackup passphrase second) mistypedHeader
      (mistypedRecords passphrase second))
    {e : Json.Mismatch} (he : Record.ofJson (.object (mistypedMembers passphrase second)) = .error e) :
    decode {} (mistypedBackup passphrase second) =
      ⟨.ok mistypedReport,
        [.skipped 0 "corp" .enterprise, .dropped 1 (.malformed e.message),
          .decoded ⟨1, 0⟩ 1 1 1]⟩ := by
  have houtcomes : (mistypedRecords passphrase second).map Outcome.ofJson =
      [.excluded "corp" .enterprise, .dropped (.malformed e.message),
        .restored { ssid := "home", security := .psk }] := by
    show [_, Outcome.ofJson (.object (mistypedMembers passphrase second)), _] = _
    rw [Outcome.ofJson_of_malformed he]
    rfl
  have hevents : ((mistypedRecords passphrase second).zipIdx.flatMap fun (v, index) =>
      recordEvents index v) =
        [.skipped 0 "corp" .enterprise, .dropped 1 (.malformed e.message)] := by
    show _ ++ (recordEvents 1 (.object (mistypedMembers passphrase second)) ++ (_ ++ [])) = _
    rw [recordEvents_of_malformed 1 he]
    rfl
  rw [decode_of_bears h ⟨rfl, "1.0", rfl, rfl⟩ rfl, houtcomes, hevents]
  rfl

theorem retyped_passphrase {v v' : Json} (h : Mistyped .passphrase v v') (second : Json) :
    Record.Retyped .passphrase v v' (mistypedMembers v second) (mistypedMembers v' second) :=
  Record.retyped_replace h [_, _] rfl

theorem retyped_second {v v' : Json} (h : Mistyped (.slot [.string "12345"] [.null]) v v')
    {passphrase : Json} :
    Record.Retyped (.slot [.string "12345"] [.null]) v v' (mistypedMembers passphrase v)
      (mistypedMembers passphrase v') :=
  Record.retyped_replace h [] rfl

theorem not_faultBefore_second {v : Json} :
    ¬(KeyPlace.slot [.string "12345"] [.null]).FaultBefore (mistypedMembers (.string "clé") v) := by
  rintro (⟨hlt, hx, hrefused⟩ | ⟨hx, hrefused⟩)
  case member m x =>
    -- the key of each member but three is absent or comes later
    cases m
    case preSharedKey =>
      obtain rfl := Option.some.inj hx
      exact hrefused { preSharedKey := some "clé" } rfl
    case ssid =>
      obtain rfl := Option.some.inj hx
      exact hrefused { ssid := "lab" } rfl
    case security =>
      obtain rfl := Option.some.inj hx
      exact hrefused { security := .wep } rfl
    case wepKeys => exact absurd hlt (by decide)
    case wepTxKeyIndex => exact absurd hlt (by decide)
    all_goals cases hx
  case entry x =>
    obtain rfl := List.mem_singleton.1 hx
    exact hrefused (some "12345") (.given rfl)

/-- A truth value among the keys is told of, but not behind a number for a passphrase. -/
theorem mistyping_told_mistypedBackup :
    (decode {} (mistypedBackup (.string "clé") (.bool true))).report = .ok mistypedReport ∧
      (decode {} (mistypedBackup (.string "clé") (.bool true))).AlikeBut 1
        "invalid type: boolean `true`, expected a string"
        "invalid type: boolean `false`, expected a string"
        (decode {} (mistypedBackup (.string "clé") (.bool false))) ∧
      (decode {} (mistypedBackup (.natural 5) (.bool true))).report = .ok mistypedReport ∧
      (decode {} (mistypedBackup (.natural 5) (.bool true))).events =
        (decode {} (mistypedBackup (.natural 5) (.bool false))).events := by
  have hbears : ∀ b, (mistypedBackup (.string "clé") (.bool b)).length ≤ 1048576 →
      Bears {} (mistypedBackup (.string "clé") (.bool b)) mistypedHeader
        (mistypedRecords (.string "clé") (.bool b)) := fun b =>
    bears_mistypedBackup (.string 1 _) (.bool 0 b)
  have hbears' : ∀ b, (mistypedBackup (.natural 5) (.bool b)).length ≤ 1048576 →
      Bears {} (mistypedBackup (.natural 5) (.bool b)) mistypedHeader
        (mistypedRecords (.natural 5) (.bool b)) := fun b =>
    bears_mistypedBackup (Json.fits_natural 1 _) (.bool 0 b)
  have htrue := hbears true (by decide +kernel)
  have htrue' := hbears' true (by decide +kernel)
  have htold := congrArg Restore.report (decode_mistypedBackup htrue rfl)
  have huntold := congrArg Restore.report (decode_mistypedBackup htrue' rfl)
  refine ⟨htold, ?_, huntold, ?_⟩
  · obtain ⟨detail, detail', halike, -, hrefusal, -⟩ :=
      mistyping_told [_] [_] htold htrue (hbears false (by decide +kernel))
        (retyped_second (.bool _ _ _))
    obtain ⟨rfl, rfl⟩ := hrefusal not_faultBefore_second
    exact halike
  · obtain ⟨detail, detail', -, -, -, hevents⟩ :=
      mistyping_told [_] [_] huntold htrue' (hbears' false (by decide +kernel))
        (retyped_second (.bool _ _ _))
    refine hevents.2 (Or.inl (.member (m := .preSharedKey) (by decide) rfl fun r hr => ?_))
    cases hr

/-- Not every two documents that differ in a mistyped key alone are told of alike: a passphrase that
is written as a number stands in the reason. -/
theorem passphrase_echoed :
    (¬∀ (settings : Settings) (blob other : List UInt8) (header : List (String × Json))
        (front back : List Json) (place : KeyPlace) (v v' : Json)
        (members members' : List (String × Json)) (report report' : Report),
      (decode settings blob).report = .ok report → (decode settings other).report = .ok report' →
      Bears settings blob header (front ++ .object members :: back) →
      Bears settings other header (front ++ .object members' :: back) →
      Record.Retyped place v v' members members' →
      (decode settings blob).events = (decode settings other).events) ∧
    (decode {} (mistypedBackup (.natural 12345678) .null)).events =
      [.skipped 0 "corp" .enterprise,
        .dropped 1 (.malformed "invalid type: integer `12345678`, expected a string"),
        .decoded ⟨1, 0⟩ 1 1 1] ∧
    (decode {} (mistypedBackup (.natural 87654321) .null)).events =
      [.skipped 0 "corp" .enterprise,
        .dropped 1 (.malformed "invalid type: integer `87654321`, expected a string"),
        .decoded ⟨1, 0⟩ 1 1 1] := by
  have hbears : Bears {} (mistypedBackup (.natural 12345678) .null) mistypedHeader
      (mistypedRecords (.natural 12345678) .null) :=
    bears_mistypedBackup (Json.fits_natural 1 _) (.null 0) (by decide +kernel)
  have hbears' : Bears {} (mistypedBackup (.natural 87654321) .null) mistypedHeader
      (mistypedRecords (.natural 87654321) .null) :=
    bears_mistypedBackup (Json.fits_natural 1 _) (.null 0) (by decide +kernel)
  have hdecode := decode_mistypedBackup hbears rfl
  have hdecode' := decode_mistypedBackup hbears' rfl
  refine ⟨fun h => ?_, congrArg Restore.events hdecode, congrArg Restore.events hdecode'⟩
  have halike := h {} _ _ mistypedHeader [_] [_] .passphrase _ _ _ _ _ _
    (congrArg Restore.report hdecode) (congrArg Restore.report hdecode') hbears hbears'
    (retyped_passphrase (.number _ _ _) .null)
  rw [hdecode, hdecode'] at halike
  exact absurd halike (by decide)

end WirelessArchive
