import WirelessArchive.Proofs.Archive.Accounting
import WirelessArchive.Proofs.Archive.Layout
import WirelessArchive.Proofs.Profile.Selection

/-!
# What a backup leaves out

A profile that is handed over for a backup is excluded by a rule, or else invalid, or else written:
exactly one of the three (`existsUnique_stands`).  The events tell of each profile that is left out,
once and with its own reason in words: first of those that rules exclude, then of those that are
invalid, and at last of how many there were and how many are written.  The last number is the number
of records that a reader finds in the text.

`Divided` sorts a list of profiles into the three groups without a word about the writer; what the
writer tells and keeps is then read off from the groups, one profile at a time.
-/

namespace WirelessArchive

/-! ## The three groups -/

/-- What becomes of a profile that is handed over for a backup. -/
inductive Standing where
  | excluded (reason : Exclusion)
  | invalid (reason : Profile.Invalid)
  | written
  deriving DecidableEq, Repr

/-- The standing of a profile: only one that no rule excludes is judged by its validity. -/
inductive Profile.Stands (p : Profile) : Standing → Prop where
  | excluded {reason : Exclusion} : reason.IsFirst p → p.Stands (.excluded reason)
  | invalid {reason : Profile.Invalid} :
    (∀ rule : Exclusion, ¬rule.Covers p) → p.validate = .error reason → p.Stands (.invalid reason)
  | written : (∀ rule : Exclusion, ¬rule.Covers p) → p.validate = .ok () → p.Stands .written

/-- The profiles of a list are divided into those that are excluded, those that are invalid and
those that are written; each group keeps the order of the list. -/
inductive Divided : List Profile → List (Profile × Exclusion) → List (Profile × Profile.Invalid) →
    List Profile → Prop where
  | nil : Divided [] [] [] []
  | excluded {p : Profile} {reason : Exclusion} {profiles excluded invalid kept} :
    p.Stands (.excluded reason) → Divided profiles excluded invalid kept →
    Divided (p :: profiles) ((p, reason) :: excluded) invalid kept
  | invalid {p : Profile} {reason : Profile.Invalid} {profiles excluded invalid kept} :
    p.Stands (.invalid reason) → Divided profiles excluded invalid kept →
    Divided (p :: profiles) excluded ((p, reason) :: invalid) kept
  | kept {p : Profile} {profiles excluded invalid kept} :
    p.Stands .written → Divided profiles excluded invalid kept →
    Divided (p :: profiles) excluded invalid (p :: kept)

/-! ## Standings -/

namespace Profile

variable {p : Profile}

theorem exists_stands (p : Profile) : ∃ s, p.Stands s := by
  rcases p.exists_isFirst_or_not_covers with ⟨reason, hfirst⟩ | hnone
  · exact ⟨.excluded reason, .excluded hfirst⟩
  cases hvalid : p.validate with
  | ok u => exact ⟨.written, .written hnone hvalid⟩
  | error reason => exact ⟨.invalid reason, .invalid hnone hvalid⟩

theorem Stands.of_excluded {reason : Exclusion} (h : p.Stands (.excluded reason)) :
    p.exclusion? = some reason := by
  cases h with
  | excluded h => exact exclusion?_of_isFirst h

theorem Stands.of_invalid {reason : Invalid} (h : p.Stands (.invalid reason)) :
    p.exclusion? = none ∧ p.validate = .error reason := by
  cases h with
  | invalid hnone hvalid => exact ⟨exclusion?_of_not_covers hnone, hvalid⟩

theorem Stands.of_written (h : p.Stands .written) :
    p.exclusion? = none ∧ p.validate = .ok () := by
  cases h with
  | written hnone hvalid => exact ⟨exclusion?_of_not_covers hnone, hvalid⟩

/-- The standing that the writer gives to a profile. -/
def standing (p : Profile) : Standing :=
  match p.exclusion?, p.validate with
  | some reason, _ => .excluded reason
  | none, .error reason => .invalid reason
  | none, .ok () => .written

theorem Stands.standing_eq {s : Standing} (h : p.Stands s) : p.standing = s := by
  cases s with
  | excluded reason => simp only [standing, h.of_excluded]
  | invalid reason => simp only [standing, h.of_invalid]
  | written => simp only [standing, h.of_written]

/-- A profile stands in exactly one group, for one reason. -/
theorem existsUnique_stands (p : Profile) : ∃! s, p.Stands s := by
  obtain ⟨s, hs⟩ := p.exists_stands
  exact ⟨s, hs, fun t ht => ht.standing_eq.symm.trans hs.standing_eq⟩

end Profile

/-! ## What the writer makes of the groups -/

namespace Divided

theorem exists_divided (profiles : List Profile) :
    ∃ excluded invalid kept, Divided profiles excluded invalid kept := by
  induction profiles with
  | nil => exact ⟨[], [], [], .nil⟩
  | cons p profiles ih =>
    obtain ⟨excluded, invalid, kept, h⟩ := ih
    obtain ⟨s, hs⟩ := p.exists_stands
    cases s with
    | excluded reason => exact ⟨_, _, _, .excluded hs h⟩
    | invalid reason => exact ⟨_, _, _, .invalid hs h⟩
    | written => exact ⟨_, _, _, .kept hs h⟩

variable {profiles : List Profile} {excluded : List (Profile × Exclusion)}
  {invalid : List (Profile × Profile.Invalid)} {kept : List Profile}

theorem sublist (h : Divided profiles excluded invalid kept) : kept.Sublist profiles := by
  induction h with
  | nil => exact .slnil
  | excluded _ _ ih => exact ih.cons _
  | invalid _ _ ih => exact ih.cons _
  | kept _ _ ih => exact ih.cons_cons _

theorem length_eq (h : Divided profiles excluded invalid kept) :
    profiles.length = kept.length + excluded.length + invalid.length := by
  induction h with
  | nil => rfl
  | _ => simp only [List.length_cons]; omega

theorem validate_eq (h : Divided profiles excluded invalid kept) {t : Profile × Profile.Invalid}
    (ht : t ∈ invalid) : t.1.validate = .error t.2 := by
  induction h with
  | nil => cases ht
  | excluded _ _ ih => exact ih ht
  | invalid hs _ ih =>
    rcases List.mem_cons.1 ht with rfl | ht
    · exact hs.of_invalid.2
    · exact ih ht
  | kept _ _ ih => exact ih ht

theorem exclusionEvents_eq (h : Divided profiles excluded invalid kept) :
    exclusionEvents profiles = excluded.map fun t => .excluded t.1.ssid t.2 := by
  rw [exclusionEvents]
  induction h with
  | nil => rfl
  | excluded hs _ ih => simp [Profile.exclusionEvent?, hs.of_excluded, ih]
  | invalid hs _ ih => simp [Profile.exclusionEvent?, hs.of_invalid, ih]
  | kept hs _ ih => simp [Profile.exclusionEvent?, hs.of_written, ih]

theorem invalidEvents_eq (h : Divided profiles excluded invalid kept) :
    (eligible profiles).filterMap Profile.invalidEvent? =
      invalid.map fun t => .invalid t.1.ssid t.2 := by
  rw [eligible]
  induction h with
  | nil => rfl
  | excluded hs _ ih => simp [Profile.isEligible, hs.of_excluded, ih]
  | invalid hs _ ih => simp [Profile.isEligible, Profile.invalidEvent?, hs.of_invalid, ih]
  | kept hs _ ih => simp [Profile.isEligible, Profile.invalidEvent?, hs.of_written, ih]

theorem written_eq (h : Divided profiles excluded invalid kept) : written profiles = kept := by
  rw [WirelessArchive.written_eq]
  induction h with
  | nil => rfl
  | excluded hs _ ih =>
    rw [List.filter_cons_of_neg (by simp [Profile.isEligible_iff, hs.of_excluded]), ih]
  | invalid hs _ ih =>
    rw [List.filter_cons_of_neg (by simp [Profile.isValid_iff, hs.of_invalid]), ih]
  | kept hs _ ih =>
    rw [List.filter_cons_of_pos
      (by simp [Profile.isEligible_iff, Profile.isValid_iff, hs.of_written]), ih]

/-- The events of a backup, group by group. -/
theorem events_eq (h : Divided profiles excluded invalid kept) (settings : Settings) :
    (encode settings profiles).events =
      excluded.map (fun t => .excluded t.1.ssid t.2) ++
        invalid.map (fun t => .invalid t.1.ssid t.2) ++
        [.encoded profiles.length kept.length (encode settings profiles).blob.length] := by
  rw [← h.exclusionEvents_eq, ← h.invalidEvents_eq, ← h.written_eq]
  rfl

end Divided

/-! ## Backups -/

/-- An event as it is put out. -/
def Event.line (e : Event) : Level × String × List (String × Field) :=
  (e.level, e.message, e.fields)

theorem Event.line_excluded (ssid : String) (rule : Exclusion) :
    (excluded ssid rule).line = (.debug, "excluding network from backup",
      [("ssid", .text ssid), ("reason", .text rule.word)]) := by
  rw [← rule.text_eq_word]
  rfl

theorem Event.line_invalid {p : Profile} {fault : Profile.Invalid}
    (h : p.validate = .error fault) :
    (invalid p.ssid fault).line = (.warn, "skipping invalid network",
      [("ssid", .text p.ssid), ("reason", .text (p.sentence fault))]) := by
  rw [← (Profile.validate_eq_error_iff.1 h).message_eq]
  rfl

/-- The lines of a backup, group by group. -/
theorem Divided.lines_eq {profiles : List Profile} {excluded : List (Profile × Exclusion)}
    {invalid : List (Profile × Profile.Invalid)} {kept : List Profile}
    (h : Divided profiles excluded invalid kept) (settings : Settings) :
    (encode settings profiles).events.map Event.line =
      excluded.map (fun t => (.debug, "excluding network from backup",
        [("ssid", .text t.1.ssid), ("reason", .text t.2.word)])) ++
      invalid.map (fun t => (.warn, "skipping invalid network",
        [("ssid", .text t.1.ssid), ("reason", .text (t.1.sentence t.2))])) ++
      [(.debug, "encoded network backup",
        [("total", .count profiles.length), ("encoded", .count kept.length),
          ("bytes", .count (encode settings profiles).blob.length)])] := by
  have hexcluded := List.map_congr_left fun (t : Profile × Exclusion) (_ : t ∈ excluded) =>
    Event.line_excluded t.1.ssid t.2
  have hinvalid := List.map_congr_left fun (t : Profile × Profile.Invalid) (ht : t ∈ invalid) =>
    Event.line_invalid (h.validate_eq ht)
  rw [h.events_eq, List.map_append, List.map_append, List.map_map, List.map_map, ← hexcluded,
    ← hinvalid]
  rfl

/-- What a backup of the profiles tells and holds, for the groups into which they are divided and
the records of its text. -/
structure OmissionsTold (settings : Settings) (profiles : List Profile)
    (excluded : List (Profile × Exclusion)) (invalid : List (Profile × Profile.Invalid))
    (kept : List Profile) (records : List Json) : Prop where
  divided : Divided profiles excluded invalid kept
  inOrder : kept.Sublist profiles
  text : ∃ members, Json.read (encode settings profiles).blob = .ok (.object members) ∧
    Json.member? members "networks" = some (.array records)
  isRecord : List.Forall₂ IsRecordOf kept records
  lines : (encode settings profiles).events.map Event.line =
    excluded.map (fun t => (.debug, "excluding network from backup",
      [("ssid", .text t.1.ssid), ("reason", .text t.2.word)])) ++
    invalid.map (fun t => (.warn, "skipping invalid network",
      [("ssid", .text t.1.ssid), ("reason", .text (t.1.sentence t.2))])) ++
    [(.debug, "encoded network backup",
      [("total", .count profiles.length), ("encoded", .count records.length),
        ("bytes", .count (encode settings profiles).blob.length)])]
  total : profiles.length = records.length +
    (encode settings profiles).events.countP (Event.reads .debug "excluding network from backup") +
    (encode settings profiles).events.countP (·.level = .warn)

/-- Every profile is written or told of, once and in its place. -/
theorem omissions_told (settings : Settings) (profiles : List Profile) :
    (∀ p : Profile, ∃! s, p.Stands s) ∧
      (∀ (p : Profile) (fault : Profile.Invalid), p.validate = .error fault ↔ p.Fails fault) ∧
      ∃ excluded invalid kept records,
        OmissionsTold settings profiles excluded invalid kept records := by
  obtain ⟨excluded, invalid, kept, h⟩ := Divided.exists_divided profiles
  have hread := read_encode settings profiles
  rw [h.written_eq] at hread
  refine ⟨Profile.existsUnique_stands, fun p fault => Profile.validate_eq_error_iff, excluded,
    invalid, kept, kept.map fun p => (Record.ofProfile p).toJson, ?_⟩
  constructor
  case divided => exact h
  case inOrder => exact h.sublist
  case text => exact ⟨_, hread, rfl⟩
  case isRecord => exact isRecordOf_map kept
  case lines =>
    rw [List.length_map]
    exact h.lines_eq settings
  case total =>
    rw [h.events_eq, List.length_map, h.length_eq]
    simp [Event.reads, Event.level, Event.message, List.countP_map, Function.comp_def]

end WirelessArchive
