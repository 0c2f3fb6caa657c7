import WirelessArchive.Proofs.Archive.RoundTrip

/-!
# One judgement of validity

Profiles are judged twice: before they are written, as they are, and after they are read, from what
their records say.  The two judgements are the same, down to the reason of a refusal, for every
profile there is (`JudgedAlike`): the credentials that a record leaves out are those that validity
does not look at, and slots that are left out because they are empty come back empty.

So what a backup leaves out as invalid is what a reader would have refused (`FilteredAlike`).
-/

namespace WirelessArchive

/-- What a reader makes of the record of a profile. -/
def Profile.judged (p : Profile) : Except RecordError Profile :=
  Record.decode (Record.ofProfile p).toJson

/-- An object with the members of the record of a profile, in any order. -/
def IsRecordInAnyOrder (p : Profile) (members : List (String × Json)) : Prop :=
  ∃ written, (Record.ofProfile p).toJson = .object written ∧
    ∀ key, Json.member? members key = Json.member? written key

/-- Reader and writer judge a profile alike, and the order of the members has no part in it. -/
structure JudgedAlike (p : Profile) : Prop where
  valid : p.validate = .ok () → p.judged = .ok p.restored
  invalid : ∀ reason, p.validate = .error reason → p.judged = .error (.invalid reason)
  anyOrder : ∀ members, IsRecordInAnyOrder p members →
    Record.decode (.object members) = p.judged

/-- The warning about a profile whose record a reader refuses. -/
def Profile.refusal? (p : Profile) : Option Event :=
  match p.judged with
  | .error (.invalid reason) => some (.invalid p.ssid reason)
  | _ => none

/-- Of the profiles that may leave the device, a backup holds the records that a reader accepts, and
warns of each that a reader refuses. -/
structure FilteredAlike (settings : Settings) (profiles : List Profile) : Prop where
  records : ∃ members, Json.read (encode settings profiles).blob = .ok (.object members) ∧
    Json.member? members "networks" =
      some (.array ((profiles.filter fun p => p.isEligible && p.judged.isOk).map
        fun p => (Record.ofProfile p).toJson))
  warnings : (encode settings profiles).events.filter (·.level = .warn) =
    (profiles.filter Profile.isEligible).filterMap Profile.refusal?

/-! ## One profile -/

theorem Record.decode_congr {members members' : List (String × Json)}
    (h : ∀ key, Json.member? members' key = Json.member? members key) :
    decode (.object members') = decode (.object members) := by
  unfold decode ofJson
  rw [Json.Schema.read_object_congr schema put {} h]

theorem judgedAlike (p : Profile) : JudgedAlike p := by
  constructor
  case valid =>
    intro hvalid
    rw [Profile.judged, Record.decode_ofProfile, hvalid]
  case invalid =>
    intro reason hinvalid
    rw [Profile.judged, Record.decode_ofProfile, hinvalid]
  case anyOrder =>
    rintro members ⟨written, hwritten, hsame⟩
    rw [Record.decode_congr hsame, ← hwritten, Profile.judged]

/-! ## Lists of profiles -/

theorem isOk_judged (p : Profile) : p.judged.isOk = p.isValid := by
  unfold Profile.judged Profile.isValid
  rw [Record.decode_ofProfile]
  rcases p.validate with reason | ⟨⟩ <;> rfl

theorem refusal?_eq (p : Profile) : p.refusal? = p.invalidEvent? := by
  unfold Profile.refusal? Profile.invalidEvent? Profile.judged
  rw [Record.decode_ofProfile]
  rcases p.validate with reason | ⟨⟩ <;> rfl

theorem warnings_encode (settings : Settings) (profiles : List Profile) :
    (encode settings profiles).events.filter (·.level = .warn) =
      (eligible profiles).filterMap Profile.invalidEvent? := by
  have hexcluded : (exclusionEvents profiles).filter (·.level = .warn) = [] := by
    rw [List.filter_eq_nil_iff]
    intro e he
    obtain ⟨p, -, hp⟩ := List.mem_filterMap.1 he
    obtain ⟨reason, -, rfl⟩ := Option.map_eq_some_iff.1 hp
    simp [Event.level]
  have hinvalid : ((eligible profiles).filterMap Profile.invalidEvent?).filter (·.level = .warn) =
      (eligible profiles).filterMap Profile.invalidEvent? := by
    rw [List.filter_eq_self]
    intro e he
    obtain ⟨p, -, hp⟩ := List.mem_filterMap.1 he
    unfold Profile.invalidEvent? at hp
    split at hp
    · cases hp
    · obtain rfl := Option.some.inj hp
      rfl
  show (exclusionEvents profiles ++ _ ++ [_]).filter _ = _
  rw [List.filter_append, List.filter_append, hexcluded, hinvalid]
  simp [Event.level]

theorem filteredAlike (settings : Settings) (profiles : List Profile) :
    FilteredAlike settings profiles := by
  constructor
  · simp only [isOk_judged, ← written_eq]
    exact ⟨_, read_encode settings profiles, rfl⟩
  · rw [warnings_encode, funext refusal?_eq]
    rfl

/-- The writer leaves out as invalid exactly what the reader refuses, for the same reason. -/
theorem validity_agreed (settings : Settings) :
    (∀ p, JudgedAlike p) ∧ ∀ profiles, FilteredAlike settings profiles :=
  ⟨judgedAlike, filteredAlike settings⟩

end WirelessArchive
