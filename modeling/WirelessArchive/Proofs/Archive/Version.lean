import WirelessArchive.Proofs.Archive.Verdict
import WirelessArchive.Proofs.Text.Numeral

/-!
# Version texts

A version is spelled as two numerals around a point, each of a number below `2 ^ 32` (`Spells`).
The reader accepts these texts and no others, and gives the numbers that they spell
(`parse_eq_ok_iff`).  What is written is one of them.  A backup that names its version by such a
text is accepted exactly if its format is right and the major number is one, and it is then reported
with this version.
-/

namespace WirelessArchive

namespace Version

open Text.Decimal (IsNumeral)

/-- The text is the two numbers of the version around a point. -/
def Spells (text : String) (v : Version) : Prop :=
  ∃ major minor : String, text = major ++ "." ++ minor ∧
    IsNumeral major.toList v.major.toNat ∧ IsNumeral minor.toList v.minor.toNat

theorem readNumber?_eq_some_iff {cs : List Char} {n : UInt32} :
    readNumber? cs = some n ↔ IsNumeral cs n.toNat := by
  unfold readNumber?
  rw [Option.map_eq_some_iff]
  constructor
  · rintro ⟨m, hm, rfl⟩
    obtain ⟨hnumeral, hlt⟩ := Text.Decimal.parse?_eq_some_iff.1 hm
    rwa [UInt32.toNat_ofNat_of_lt' hlt]
  · intro h
    refine ⟨n.toNat, Text.Decimal.parse?_eq_some_iff.2 ⟨h, n.toNat_lt⟩, ?_⟩
    rw [UInt32.ofNat_toNat]

/-- A version is read from the two parts around the first point. -/
theorem parse_eq_ok_iff_parts {text : String} {v : Version} :
    parse text = .ok v ↔ ∃ before after, Text.splitFirst? '.' text.toList = some (before, after) ∧
      readNumber? before = some v.major ∧ readNumber? after = some v.minor := by
  have hparts : ∀ parts? : Option (List Char × List Char),
      (parts?.bind fun parts => (readNumber? parts.1).bind fun major =>
        (readNumber? parts.2).bind fun minor => some (Version.mk major minor)) = some v ↔
      ∃ before after, parts? = some (before, after) ∧
        readNumber? before = some v.major ∧ readNumber? after = some v.minor := by
    intro parts?
    simp only [Option.bind_eq_some_iff, Prod.exists, Option.some.injEq]
    constructor
    · rintro ⟨before, after, hparts, major, hmajor, minor, hminor, rfl⟩
      exact ⟨before, after, hparts, hmajor, hminor⟩
    · rintro ⟨before, after, hparts, hmajor, hminor⟩
      exact ⟨before, after, hparts, v.major, hmajor, v.minor, hminor, rfl⟩
  rw [← hparts]
  unfold parse
  dsimp only
  split
  · next w hw =>
    rw [Except.ok.injEq, ← Option.some.injEq, ← hw]
    rfl
  · next hnone =>
    refine iff_of_false (by simp) fun h => ?_
    cases hnone.symm.trans h

/-- The reader accepts exactly the texts that spell a version. -/
theorem parse_eq_ok_iff {text : String} {v : Version} : parse text = .ok v ↔ Spells text v := by
  rw [parse_eq_ok_iff_parts]
  constructor
  · rintro ⟨before, after, hsplit, hmajor, hminor⟩
    obtain ⟨htext, -⟩ := (Text.splitFirst?_toList_eq_some_iff "." (by rfl)).1 hsplit
    refine ⟨.ofList before, .ofList after, htext, ?_, ?_⟩
    · rw [String.toList_ofList]
      exact readNumber?_eq_some_iff.1 hmajor
    · rw [String.toList_ofList]
      exact readNumber?_eq_some_iff.1 hminor
  · rintro ⟨major, minor, rfl, hmajor, hminor⟩
    have hpoint : '.' ∉ major.toList := hmajor.notMem (by decide) (by decide)
    refine ⟨major.toList, minor.toList, ?_, ?_, ?_⟩
    · exact Text.splitFirst?_eq_some_iff.2 ⟨by simp, hpoint⟩
    · exact readNumber?_eq_some_iff.2 hmajor
    · exact readNumber?_eq_some_iff.2 hminor

/-- The error carries the text. -/
theorem eq_of_parse_eq_error {text : String} {e : ParseError} (h : parse text = .error e) :
    e = ⟨text⟩ := by
  unfold parse at h
  dsimp only at h
  split at h
  · cases h
  · cases h
    rfl

/-- Every other text is refused. -/
theorem parse_eq_error_iff {text : String} {e : ParseError} :
    parse text = .error e ↔ e = ⟨text⟩ ∧ ∀ v, ¬Spells text v := by
  constructor
  · intro h
    refine ⟨eq_of_parse_eq_error h, fun v hv => ?_⟩
    cases h.symm.trans (parse_eq_ok_iff.2 hv)
  · rintro ⟨rfl, hv⟩
    cases h : parse text with
    | ok v => exact absurd (parse_eq_ok_iff.1 h) (hv v)
    | error e => rw [eq_of_parse_eq_error h]

/-! ## What is written -/

theorem text_eq (v : Version) :
    v.text = toString v.major.toNat ++ "." ++ toString v.minor.toNat := by
  apply String.toList_injective
  simp [text, toChars, Nat.repr, ToString.toString]

theorem spells_text (v : Version) : Spells v.text v := by
  have hdigits : ∀ n : Nat, IsNumeral (toString n).toList n := by
    intro n
    rw [Text.Digits.toList_toString]
    exact Text.Decimal.isNumeral_toDigits n
  exact ⟨_, _, text_eq v, hdigits _, hdigits _⟩

theorem parse_text (v : Version) : parse v.text = .ok v := parse_eq_ok_iff.2 (spells_text v)

theorem text_injective : Function.Injective text := Text.injective_of_readBack parse_text

end Version

/-! ## Backups that name their version -/

open Version (Spells)

/-- A header with the text of a version is good exactly if its format is right and the version is
readable, and it gives this version. -/
theorem Envelope.checkHeader_of_spells {e : Envelope} {v w : Version} (h : Spells e.version v) :
    e.checkHeader = .ok w ↔ e.format = "wifi-backup" ∧ v.major = 1 ∧ w = v := by
  rw [checkHeader_eq_ok_iff, headerVersion_eq_ok_iff, Version.parse_eq_ok_iff.2 h,
    Except.ok.injEq]
  constructor
  · rintro ⟨⟨hformat, rfl⟩, hmajor⟩
    exact ⟨hformat, hmajor, rfl⟩
  · rintro ⟨hformat, hmajor, rfl⟩
    exact ⟨⟨hformat, rfl⟩, hmajor⟩

/-- A backup whose members name the version by its text is accepted as its header is. -/
theorem report_of_spells {settings : Settings} {blob : List UInt8} {members : List (String × Json)}
    (h : Holds settings blob members) (he : Envelope.IsEnvelope members) {text : String}
    (htext : Json.member? members "version" = some (.string text)) {v w : Version}
    (hv : Spells text v) :
    (∃ report, (decode settings blob).report = .ok report ∧ report.version = w) ↔
      Json.member? members "format" = some (.string "wifi-backup") ∧ v.major = 1 ∧ w = v := by
  constructor
  · rintro ⟨report, hreport, rfl⟩
    cases hreport ▸ verdict settings blob with
    | accepted h' he' hnames hmajor _ =>
      obtain rfl := holds_unique h h'
      obtain ⟨text', htext', hparse⟩ := hnames.version
      cases htext.symm.trans htext'
      cases (Version.parse_eq_ok_iff.2 hv).symm.trans hparse
      exact ⟨hnames.format, hmajor, rfl⟩
  · rintro ⟨hformat, hmajor, rfl⟩
    have hnames : Envelope.NamesVersion members w :=
      ⟨hformat, text, htext, Version.parse_eq_ok_iff.2 hv⟩
    obtain ⟨networks, hnetworks⟩ := he.networks
    exact ⟨_, report_accepted h he hnames hmajor hnetworks, rfl⟩

/-- Versions are read exactly: by their grammar, back from what is written of them, and in the
header of a backup. -/
theorem versions_readExactly :
    (∀ text v, Version.parse text = .ok v ↔ Spells text v) ∧
      (∀ text e, Version.parse text = .error e ↔ e = ⟨text⟩ ∧ ∀ v, ¬Spells text v) ∧
      (∀ v : Version, v.text = toString v.major.toNat ++ "." ++ toString v.minor.toNat ∧
        Version.parse v.text = .ok v) ∧
      Function.Injective Version.text ∧
      (∀ (e : Envelope) v, Spells e.version v → ∀ w,
        e.checkHeader = .ok w ↔ e.format = "wifi-backup" ∧ v.major = 1 ∧ w = v) ∧
      ∀ settings blob members text v, Holds settings blob members →
        Envelope.IsEnvelope members → Json.member? members "version" = some (.string text) →
        Spells text v → ∀ w, (∃ report, (decode settings blob).report = .ok report ∧
          report.version = w) ↔
            Json.member? members "format" = some (.string "wifi-backup") ∧ v.major = 1 ∧ w = v := by
  refine ⟨?_, ?_, ?_, Version.text_injective, ?_, ?_⟩
  · exact fun text v => Version.parse_eq_ok_iff
  · exact fun text e => Version.parse_eq_error_iff
  · exact fun v => ⟨Version.text_eq v, Version.parse_text v⟩
  · exact fun e v h w => Envelope.checkHeader_of_spells h
  · exact fun settings blob members text v h he htext hv w => report_of_spells h he htext hv

end WirelessArchive
