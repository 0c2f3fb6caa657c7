import WirelessArchive.Archive.Envelope
import WirelessArchive.Proofs.Json.Shape

/-!
# The envelope of a backup

What the root object of a backup gives, and when it gives anything at all: the object needs a list
of records, and its format and version are strings if they are there (`IsEnvelope`).  It is good for
a version when it names the format of backups and the text of that version (`NamesVersion`).
-/

namespace WirelessArchive.Envelope

open Json (Denotes Fits)

/-- The field of a member is what is given for the member, or its default. -/
def Has (e : Envelope) : Member → Option Json → Prop
  | .format, x => Denotes Json.asString "" x e.format
  | .version, x => Denotes Json.asString "" x e.version
  | .networks, x => Denotes (Json.asList .ok) [] x e.networks

theorem eq_of_has {t e : Envelope} (h : ∀ m, ∃ x, Has t m x ∧ Has e m x) : t = e := by
  cases t
  cases e
  congr 1
  · exact Denotes.unique_of_exists (h .format)
  · exact Denotes.unique_of_exists (h .version)
  · exact Denotes.unique_of_exists (h .networks)

theorem fields : schema.Fields put {} Has where
  key_injective m n := by cases m <;> cases n <;> decide
  mem_declared m := by cases m <;> decide
  mem_byKey m := by cases m <;> decide
  nodup_byKey := by decide
  blank_has m := by cases m <;> rfl
  put_has {t t' m v} h := by
    cases m <;>
      · obtain ⟨a, ha, rfl⟩ := Json.map_eq_ok_iff.1 h
        exact ha
  put_frame {t t' m n v x} h hn hx := by
    cases m <;>
      · obtain ⟨a, -, rfl⟩ := Json.map_eq_ok_iff.1 h
        cases n <;> first | exact absurd rfl hn | exact hx
  put_of_has {e m v} t h := by
    cases m <;> exact ⟨_, Json.map_eq_ok_iff.2 ⟨_, h, rfl⟩⟩
  has_unique := eq_of_has

theorem asList_ok (items : List Json) : Json.asList .ok (.array items) = .ok items := by
  have h := Json.asList_map (fun v : Json => (rfl : Except.ok (id v) = .ok v)) items
  rwa [List.map_id] at h

/-- The envelope of an object has its members; the records have to be there. -/
theorem ofJson_object_iff {members : List (String × Json)} {e : Envelope} :
    ofJson (.object members) = .ok e ↔
      (∀ m : Member, Has e m (Json.member? members m.key)) ∧
        (Json.member? members Member.networks.key).isSome := by
  rw [ofJson, Json.Schema.read_object_iff fields]
  refine and_congr_right fun _ => ?_
  show (∀ m ∈ [Member.networks], _) ↔ _
  rw [List.forall_mem_singleton]
  rfl

/-! ## What is written -/

theorem ofJson_toJson (e : Envelope) : ofJson e.toJson = .ok e := by
  refine ofJson_object_iff.2 ⟨fun m => ?_, rfl⟩
  cases m with
  | format => rfl
  | version => rfl
  | networks => exact asList_ok e.networks

theorem fits_toJson {e : Envelope} {n : Nat} (h : ∀ v ∈ e.networks, Fits n v) :
    Fits (n + 2) e.toJson := by
  refine .object fun m hm => ?_
  simp only [List.mem_cons, List.not_mem_nil, or_false] at hm
  obtain rfl | rfl | rfl := hm
  · exact .string _ _
  · exact .string _ _
  · exact .array h

/-! ## What is accepted -/

/-- The members make an envelope: there is a list of records, and what is given for format and
version are strings. -/
structure IsEnvelope (members : List (String × Json)) : Prop where
  networks : ∃ items, Json.member? members "networks" = some (.array items)
  format : ∀ v, Json.member? members "format" = some v → ∃ text, v = .string text
  version : ∀ v, Json.member? members "version" = some v → ∃ text, v = .string text

/-- The members name the format of backups and a version. -/
structure NamesVersion (members : List (String × Json)) (version : Version) : Prop where
  format : Json.member? members "format" = some (.string "wifi-backup")
  version : ∃ text, Json.member? members "version" = some (.string text) ∧
    Version.parse text = .ok version

/-- Members that name a version make an envelope around a list of records. -/
theorem NamesVersion.isEnvelope {members : List (String × Json)} {version : Version}
    (h : NamesVersion members version) {items : List Json}
    (hitems : Json.member? members "networks" = some (.array items)) : IsEnvelope members := by
  obtain ⟨hformat, text, htext, -⟩ := h
  refine ⟨⟨items, hitems⟩, fun v hv => ?_, fun v hv => ?_⟩
  · exact ⟨_, Option.some.inj (hv.symm.trans hformat)⟩
  · exact ⟨text, Option.some.inj (hv.symm.trans htext)⟩

theorem denotes_text_iff {x : Option Json} {text : String} :
    Denotes Json.asString "" x text ↔ x = none ∧ text = "" ∨ x = some (.string text) := by
  cases x with
  | none => simp [Denotes]
  | some v => cases v <;> simp [Denotes, Json.asString]

theorem denotes_items_iff {x : Option Json} {items : List Json} :
    Denotes (Json.asList .ok) [] x items ↔ x = none ∧ items = [] ∨ x = some (.array items) := by
  cases x with
  | none => simp [Denotes]
  | some v =>
    cases v with
    | array l => simp [Denotes, asList_ok]
    | _ => simp [Denotes, Json.asList]

theorem exists_denotes_text {x : Option Json} (h : ∀ v, x = some v → ∃ text, v = .string text) :
    ∃ text, Denotes Json.asString "" x text := by
  cases x with
  | none => exact ⟨"", rfl⟩
  | some v =>
    obtain ⟨text, rfl⟩ := h v rfl
    exact ⟨text, rfl⟩

theorem isString_of_denotes_text {x : Option Json} {text : String}
    (h : Denotes Json.asString "" x text) : ∀ v, x = some v → ∃ text, v = .string text := by
  rintro v rfl
  obtain ⟨hv, -⟩ | hv := denotes_text_iff.1 h
  · cases hv
  · exact ⟨text, Option.some.inj hv⟩

/-- An object is read as an envelope exactly if its members make one. -/
theorem isEnvelope_iff {members : List (String × Json)} :
    IsEnvelope members ↔ ∃ e, ofJson (.object members) = .ok e := by
  constructor
  · rintro ⟨⟨items, hitems⟩, hformat, hversion⟩
    obtain ⟨format, hformat⟩ := exists_denotes_text hformat
    obtain ⟨version, hversion⟩ := exists_denotes_text hversion
    refine ⟨⟨format, version, items⟩, ofJson_object_iff.2 ⟨fun m => ?_, ?_⟩⟩
    · cases m with
      | format => exact hformat
      | version => exact hversion
      | networks => exact denotes_items_iff.2 (Or.inr hitems)
    · show (Json.member? members "networks").isSome = true
      rw [hitems]
      rfl
  · rintro ⟨e, he⟩
    obtain ⟨hhas, hsome⟩ := ofJson_object_iff.1 he
    refine ⟨?_, isString_of_denotes_text (hhas .format), isString_of_denotes_text (hhas .version)⟩
    obtain ⟨hnone, -⟩ | hitems := denotes_items_iff.1 (hhas .networks)
    · rw [hnone] at hsome
      cases hsome
    · exact ⟨e.networks, hitems⟩

theorem headerVersion_eq_ok_iff {e : Envelope} {v : Version} :
    e.headerVersion = .ok v ↔ e.format = formatTag ∧ Version.parse e.version = .ok v := by
  have hempty : ∀ v, Version.parse "" ≠ .ok v := by
    intro v hv
    cases hv
  unfold headerVersion
  split
  · next hformat =>
    rw [hformat]
    refine iff_of_false nofun fun h => absurd h.1 (by decide)
  · split
    · next htag => exact iff_of_false nofun fun h => htag h.1
    · next htag =>
      rw [ne_eq, Decidable.not_not] at htag
      split
      · next hversion =>
        rw [hversion]
        exact iff_of_false nofun fun h => hempty v h.2
      · cases Version.parse e.version with
        | ok w => simp [htag]
        | error fault => simp

theorem checkHeader_eq_ok_iff {e : Envelope} {v : Version} :
    e.checkHeader = .ok v ↔ e.headerVersion = .ok v ∧ v.major = 1 := by
  unfold checkHeader
  cases e.headerVersion with
  | error fault => simp
  | ok w =>
    have hreadable : w.isReadable = true ↔ w.major = 1 := beq_iff_eq
    by_cases hw : w.isReadable = true
    · simp only [if_pos hw, Except.ok.injEq]
      exact ⟨fun h => ⟨h, h ▸ hreadable.1 hw⟩, fun h => h.1⟩
    · simp only [if_neg hw, Except.ok.injEq]
      exact iff_of_false nofun fun h => hw (hreadable.2 (h.1 ▸ h.2))

theorem checkHeader_current (networks : List Json) :
    (current networks).checkHeader = .ok ⟨1, 0⟩ := by
  have hparse : Version.parse Version.current.text = .ok ⟨1, 0⟩ := rfl
  exact checkHeader_eq_ok_iff.2 ⟨headerVersion_eq_ok_iff.2 ⟨rfl, hparse⟩, rfl⟩

/-- The header of an envelope gives the version that its members name, and no other. -/
theorem namesVersion_iff {members : List (String × Json)} {e : Envelope} {v : Version}
    (he : ofJson (.object members) = .ok e) :
    NamesVersion members v ↔ e.headerVersion = .ok v := by
  obtain ⟨hhas, -⟩ := ofJson_object_iff.1 he
  have hformat : Denotes Json.asString "" (Json.member? members "format") e.format := hhas .format
  have hversion : Denotes Json.asString "" (Json.member? members "version") e.version :=
    hhas .version
  rw [headerVersion_eq_ok_iff]
  constructor
  · rintro ⟨htag, text, htext, hv⟩
    rw [htag] at hformat
    rw [htext] at hversion
    refine ⟨(Except.ok.inj hformat).symm, ?_⟩
    rwa [← Except.ok.inj hversion]
  · rintro ⟨htag, hv⟩
    refine ⟨?_, e.version, (denotes_text_iff.1 hversion).resolve_left ?_, hv⟩
    · rw [htag] at hformat
      exact (denotes_text_iff.1 hformat).resolve_left fun h => absurd h.2 (by decide)
    · rintro ⟨-, hempty⟩
      rw [hempty] at hv
      cases hv

end WirelessArchive.Envelope
