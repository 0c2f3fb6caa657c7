import WirelessArchive.Proofs.Archive.Verdict
import WirelessArchive.Proofs.Json.Forms
import WirelessArchive.Proofs.Record.Profile

/-!
# The forms of records

A record is written in plain form (`IsPlain`): it is an object, its security type and its modes are
names, and its policy is an object or `null`.  The reader takes more than that (`OtherForm`): a
record and a policy may be arrays, and the security type and the modes may be objects with `null`
under their names.  These are all the forms there are: what is restored is what some plain object
gives that restates the element (`record_judgedByForm`).  An element that is no object and no array
is dropped.
-/

namespace WirelessArchive

open Json (Denotes Names NamesPlainly)

namespace AddressingRecord

/-- The modes of the members are names, if they are there. -/
structure IsPlain (members : List (String × Json)) : Prop where
  assignment : ∀ v, Json.member? members "assignment" = some v → ∃ name, v = .string name
  proxySettings : ∀ v, Json.member? members "proxySettings" = some v → ∃ name, v = .string name

/-- The plain form of what is given for a member of a policy: a mode is named. -/
def Plainly : Member → Option Json → Option Json → Prop
  | .assignment, x, y => NamesPlainly x y
  | .proxySettings, x, y => NamesPlainly x y
  | _, x, y => x = y

theorem plainForms : Json.Schema.PlainForms Has Plainly where
  has_iff {m x y} h r := by
    cases m with
    | assignment => exact NamesPlainly.denotes_iff h
    | proxySettings => exact NamesPlainly.denotes_iff h
    | _ => rw [show x = y from h]
  isSome_eq {m x y} h := by
    cases m with
    | assignment => exact NamesPlainly.isSome_eq h
    | proxySettings => exact NamesPlainly.isSome_eq h
    | _ => rw [show x = y from h]
  exists_plainly {r m x} h := by
    cases m with
    | assignment => exact Json.exists_namesPlainly h
    | proxySettings => exact Json.exists_namesPlainly h
    | _ => exact ⟨x, rfl⟩

theorem nodup_declared : schema.declared.Nodup := by decide

/-- The members say in plain form what the value says as a policy. -/
abbrev Restates (v : Json) (members : List (String × Json)) : Prop :=
  schema.Restates Plainly v members

theorem Restates.ofJson_iff {v : Json} {members : List (String × Json)} (h : Restates v members)
    {r : AddressingRecord} : ofJson v = .ok r ↔ ofJson (.object members) = .ok r :=
  Json.Schema.Restates.read_iff fields nodup_declared plainForms h

theorem isPlain_of_restates {v : Json} {members : List (String × Json)} (h : Restates v members) :
    IsPlain members where
  assignment _ := NamesPlainly.eq_string (h.plainly .assignment)
  proxySettings _ := NamesPlainly.eq_string (h.plainly .proxySettings)

/-- Modes that are read and are not objects are names. -/
theorem isPlain_of_ofJson {members : List (String × Json)} {r : AddressingRecord}
    (hr : ofJson (.object members) = .ok r) (h : ∀ key ∈ ["assignment", "proxySettings"],
      ∀ inner, Json.member? members key ≠ some (.object inner)) : IsPlain members := by
  obtain ⟨hhas, -⟩ := (Json.Schema.read_object_iff fields).1 hr
  constructor
  case assignment =>
    exact fun v => Json.eq_string_of_denotes (hhas .assignment) (h "assignment" (by simp))
  case proxySettings =>
    exact fun v => Json.eq_string_of_denotes (hhas .proxySettings) (h "proxySettings" (by simp))

theorem restates_self {members : List (String × Json)} (h : IsPlain members) :
    Restates (.object members) members := by
  refine ⟨.object members, fun m => ?_⟩
  cases m with
  | assignment => exact Json.namesPlainly_self h.assignment
  | proxySettings => exact Json.namesPlainly_self h.proxySettings
  | _ => rfl

end AddressingRecord

namespace Record

/-- The value is an object in plain form: the security type is a name, and the policy is absent,
`null` or an object in which the modes are names. -/
def IsPlain (v : Json) : Prop :=
  ∃ members, v = .object members ∧
    (∃ name, Json.member? members "security" = some (.string name)) ∧
    ∀ policy, Json.member? members "ipConfiguration" = some policy → policy = .null ∨
      ∃ modes, policy = .object modes ∧ AddressingRecord.IsPlain modes

/-- The plain form of what is given for the policy. -/
inductive PolicyPlainly : Option Json → Option Json → Prop where
  | absent : PolicyPlainly none none
  | null : PolicyPlainly (some .null) (some .null)
  | given {v : Json} {members : List (String × Json)} : AddressingRecord.Restates v members →
    PolicyPlainly (some v) (some (.object members))

/-- The plain form of what is given for a member of a record. -/
def Plainly : Member → Option Json → Option Json → Prop
  | .security, x, y => NamesPlainly x y
  | .ipConfiguration, x, y => PolicyPlainly x y
  | _, x, y => x = y

theorem asOption_eq_map {α : Type} {read : Json → Json.Read α} {v : Json} (h : v ≠ .null) :
    Json.asOption read v = (read v).map some := by
  cases v <;> first | rfl | exact absurd rfl h

theorem PolicyPlainly.denotes_iff {x y : Option Json} (h : PolicyPlainly x y)
    {a : Option AddressingRecord} :
    Denotes (Json.asOption AddressingRecord.ofJson) none x a ↔
      Denotes (Json.asOption AddressingRecord.ofJson) none y a := by
  cases h with
  | absent => rfl
  | null => rfl
  | @given v members hv =>
    have hnull : v ≠ .null := by
      rintro rfl
      cases hv.form
    show Json.asOption _ v = _ ↔ Json.asOption _ (.object members) = _
    rw [asOption_eq_map hnull, asOption_eq_map (by simp), Json.map_eq_ok_iff, Json.map_eq_ok_iff]
    simp only [hv.ofJson_iff]

theorem exists_policyPlainly {x : Option Json} {a : Option AddressingRecord}
    (h : Denotes (Json.asOption AddressingRecord.ofJson) none x a) : ∃ y, PolicyPlainly x y := by
  cases x with
  | none => exact ⟨none, .absent⟩
  | some v =>
    by_cases hnull : v = .null
    · subst hnull
      exact ⟨_, .null⟩
    · have hv : Json.asOption AddressingRecord.ofJson v = .ok a := h
      rw [asOption_eq_map hnull, Json.map_eq_ok_iff] at hv
      obtain ⟨r, hr, -⟩ := hv
      obtain ⟨members, hmembers⟩ := Json.Schema.exists_restates AddressingRecord.fields
        AddressingRecord.nodup_declared AddressingRecord.plainForms hr
      exact ⟨_, .given hmembers⟩

/-- A policy in plain form is `null` or an object whose modes are names. -/
theorem PolicyPlainly.eq_null_or_object {x y : Option Json} (h : PolicyPlainly x y) {v : Json}
    (hv : y = some v) :
    v = .null ∨ ∃ modes, v = .object modes ∧ AddressingRecord.IsPlain modes := by
  cases h with
  | absent => cases hv
  | null => exact Or.inl (Option.some.inj hv).symm
  | given hmodes =>
    exact Or.inr ⟨_, (Option.some.inj hv).symm, AddressingRecord.isPlain_of_restates hmodes⟩

theorem policyPlainly_self {x : Option Json} (h : ∀ v, x = some v → v = .null ∨
    ∃ modes, v = .object modes ∧ AddressingRecord.IsPlain modes) : PolicyPlainly x x := by
  cases x with
  | none => exact .absent
  | some v =>
    obtain rfl | ⟨modes, rfl, hmodes⟩ := h v rfl
    · exact .null
    · exact .given (AddressingRecord.restates_self hmodes)

theorem plainForms : Json.Schema.PlainForms Has Plainly where
  has_iff {m x y} h r := by
    cases m with
    | security => exact NamesPlainly.denotes_iff h
    | ipConfiguration => exact PolicyPlainly.denotes_iff h
    | _ => rw [show x = y from h]
  isSome_eq {m x y} h := by
    cases m with
    | security => exact NamesPlainly.isSome_eq h
    | ipConfiguration => cases h <;> rfl
    | _ => rw [show x = y from h]
  exists_plainly {r m x} h := by
    cases m with
    | security => exact Json.exists_namesPlainly h
    | ipConfiguration => exact exists_policyPlainly h
    | _ => exact ⟨x, rfl⟩

theorem nodup_declared : schema.declared.Nodup := by decide

/-- The members say in plain form what the value says as a record. -/
abbrev Restates (v : Json) (members : List (String × Json)) : Prop :=
  schema.Restates Plainly v members

theorem Restates.ofJson_iff {v : Json} {members : List (String × Json)} (h : Restates v members)
    {r : Record} : ofJson v = .ok r ↔ ofJson (.object members) = .ok r :=
  Json.Schema.Restates.read_iff fields nodup_declared plainForms h

/-- An object that restates a record is plain: what a record needs is there, by name. -/
theorem isPlain_of_restates {v : Json} {members : List (String × Json)} (h : Restates v members)
    {r : Record} (hr : ofJson (.object members) = .ok r) : IsPlain (.object members) := by
  obtain ⟨-, hmandatory⟩ := (Json.Schema.read_object_iff fields).1 hr
  refine ⟨members, rfl, ?_, fun _ => PolicyPlainly.eq_null_or_object (h.plainly .ipConfiguration)⟩
  obtain ⟨v, hv⟩ := Option.isSome_iff_exists.1 (hmandatory .security (by decide))
  obtain ⟨name, rfl⟩ := NamesPlainly.eq_string (h.plainly .security) hv
  exact ⟨name, hv⟩

/-- A value has a profile exactly if a plain object that restates it has, and it is the same. -/
theorem decode_iff_restated {v : Json} {p : Profile} :
    decode v = .ok p ↔ ∃ members, Restates v members ∧ IsPlain (.object members) ∧
      decode (.object members) = .ok p := by
  simp only [decode_eq_ok_iff]
  constructor
  · rintro ⟨r, hr, hp⟩
    obtain ⟨members, h⟩ : ∃ members, Restates v members :=
      Json.Schema.exists_restates fields nodup_declared plainForms hr
    have hobject := h.ofJson_iff.1 hr
    exact ⟨members, h, isPlain_of_restates h hobject, r, hobject, hp⟩
  · rintro ⟨members, h, -, r, hr, hp⟩
    exact ⟨r, h.ofJson_iff.2 hr, hp⟩

/-- The forms that the reader takes besides plain objects. -/
inductive OtherForm : Json → Prop where
  | array (items : List Json) : OtherForm (.array items)
  | security {members inner : List (String × Json)} :
    Json.member? members "security" = some (.object inner) → OtherForm (.object members)
  | policy {members : List (String × Json)} {items : List Json} :
    Json.member? members "ipConfiguration" = some (.array items) → OtherForm (.object members)
  | mode {members modes inner : List (String × Json)} {key : String} :
    Json.member? members "ipConfiguration" = some (.object modes) →
    key ∈ ["assignment", "proxySettings"] → Json.member? modes key = some (.object inner) →
    OtherForm (.object members)

/-- No plain object is in another form. -/
theorem IsPlain.not_otherForm {v : Json} (h : IsPlain v) : ¬OtherForm v := by
  obtain ⟨members, rfl, ⟨name, hname⟩, hpolicy⟩ := h
  rintro (- | hsecurity | hitems | ⟨hmodes, hkey, hmode⟩)
  · cases hname.symm.trans hsecurity
  · obtain h | ⟨modes, h, -⟩ := hpolicy _ hitems <;> cases h
  · obtain h | ⟨modes, h, hplain⟩ := hpolicy _ hmodes <;> cases h
    simp only [List.mem_cons, List.not_mem_nil, or_false] at hkey
    obtain rfl | rfl := hkey
    · obtain ⟨name, h⟩ := hplain.assignment _ hmode
      cases h
    · obtain ⟨name, h⟩ := hplain.proxySettings _ hmode
      cases h

/-- A record that is in no other form is a plain object. -/
theorem isPlain_of_not_otherForm {v : Json} {r : Record} (hr : ofJson v = .ok r)
    (h : ¬OtherForm v) : IsPlain v := by
  obtain ⟨hform, hhas, hmandatory⟩ := (Json.Schema.read_iff fields nodup_declared).1 hr
  cases hform with
  | array => exact absurd (.array _) h
  | object members =>
    refine ⟨members, rfl, ?_, fun policy hpolicy => ?_⟩
    · obtain ⟨v, hv⟩ := Option.isSome_iff_exists.1 (hmandatory .security (by decide))
      obtain ⟨name, rfl⟩ :=
        Json.eq_string_of_denotes (hhas .security) (fun inner e => h (.security e)) hv
      exact ⟨name, hv⟩
    · have hread : Json.asOption AddressingRecord.ofJson policy = .ok r.ipConfiguration := by
        have hdenotes : Denotes _ none (Json.member? members "ipConfiguration") _ :=
          hhas .ipConfiguration
        rwa [hpolicy] at hdenotes
      by_cases hnull : policy = .null
      · exact Or.inl hnull
      · rw [asOption_eq_map hnull, Json.map_eq_ok_iff] at hread
        obtain ⟨a, ha, -⟩ := hread
        obtain ⟨hform, -⟩ := (Json.Schema.read_iff AddressingRecord.fields
          AddressingRecord.nodup_declared).1 ha
        cases hform with
        | array => exact absurd (.policy hpolicy) h
        | object modes =>
          refine Or.inr ⟨modes, rfl, AddressingRecord.isPlain_of_ofJson ha ?_⟩
          exact fun key hkey inner hmode => h (.mode hpolicy hkey hmode)

/-- A plain object restates itself, so that plain elements are among those that are restored. -/
theorem restates_self {members : List (String × Json)} (h : IsPlain (.object members)) :
    Restates (.object members) members := by
  obtain ⟨members', e, ⟨name, hname⟩, hpolicy⟩ := h
  cases e
  refine ⟨.object members, fun m => ?_⟩
  cases m with
  | security =>
    exact Json.namesPlainly_self fun v hv => ⟨name, Option.some.inj (hv.symm.trans hname)⟩
  | ipConfiguration => exact policyPlainly_self hpolicy
  | _ => rfl

end Record

/-- A record is dropped if it has no profile. -/
theorem Outcome.isDropped_ofJson (v : Json) :
    (Outcome.ofJson v).isDropped = true ↔ ∀ p, Record.decode v ≠ .ok p := by
  unfold Outcome.ofJson
  cases Record.decode v with
  | error reason => simp [isDropped]
  | ok p =>
    dsimp only
    cases p.exclusion? <;> simp [isDropped]

theorem Outcome.exists_ofJson_of_accepted {v : Json} (h : (Outcome.ofJson v).isDropped = false) :
    ∃ r, Record.ofJson v = .ok r := by
  cases hr : Record.ofJson v with
  | ok r => exact ⟨r, rfl⟩
  | error mismatch =>
    have hnone : ∀ p, Record.decode v ≠ .ok p := by
      rintro p hp
      rw [Record.decode, hr] at hp
      cases hp
    rw [(isDropped_ofJson v).2 hnone] at h
    cases h

/-- An element of a backup is as good as the plain objects that restate it. -/
structure JudgedByForm (v : Json) : Prop where
  profile : ∀ p, Record.decode v = .ok p ↔ ∃ members, Record.Restates v members ∧
    Record.IsPlain (.object members) ∧ Record.decode (.object members) = .ok p
  dropped : (Outcome.ofJson v).isDropped = true ↔ ∀ members, Record.Restates v members →
    ∀ p, Record.decode (.object members) ≠ .ok p
  /-- Plain objects are among those that restate something. -/
  self : ∀ members, v = .object members → Record.IsPlain v → Record.Restates v members
  /-- What is neither an object nor an array, or an array that is too long, is dropped. -/
  noForm : ¬Record.schema.IsForm v → (Outcome.ofJson v).isDropped = true
  /-- Only what is plain is accepted, unless it is in one of the other forms. -/
  onlyPlain : ((Outcome.ofJson v).isDropped = false → Record.IsPlain v) ↔
    ¬((Outcome.ofJson v).isDropped = false ∧ Record.OtherForm v)

/-- Every element of a backup is judged by the plain objects that restate it, and not by its own
form. -/
theorem record_judgedByForm (v : Json) : JudgedByForm v := by
  have hdropped : (Outcome.ofJson v).isDropped = true ↔ ∀ members, Record.Restates v members →
      ∀ p, Record.decode (.object members) ≠ .ok p := by
    rw [Outcome.isDropped_ofJson]
    constructor
    · intro h members hv p hp
      obtain ⟨r, hr, hp⟩ := Record.decode_eq_ok_iff.1 hp
      exact h p (Record.decode_eq_ok_iff.2 ⟨r, hv.ofJson_iff.2 hr, hp⟩)
    · intro h p hp
      obtain ⟨members, hv, -, hp⟩ := Record.decode_iff_restated.1 hp
      exact h members hv p hp
  constructor
  case profile => exact fun p => Record.decode_iff_restated
  case dropped => exact hdropped
  case self =>
    rintro members rfl
    exact Record.restates_self
  case noForm => exact fun hv => hdropped.2 fun members h => absurd h.form hv
  case onlyPlain =>
    rw [not_and]
    refine forall_congr' fun haccepted => ⟨Record.IsPlain.not_otherForm, fun h => ?_⟩
    obtain ⟨r, hr⟩ := Outcome.exists_ofJson_of_accepted haccepted
    exact Record.isPlain_of_not_otherForm hr h

/-- Records of which none is plain: an array, a security type and a mode that are objects, and a
policy that is an array. -/
def unplainRecords : List Json :=
  [.array [.string "lab", .null, .string "NONE"],
    .object [("ssid", .string "home"), ("security", .object [("PSK", .null)])],
    .object [("ssid", .string "shop"), ("security", .string "NONE"),
      ("ipConfiguration", .array [.string "DHCP"])],
    .object [("ssid", .string "dock"), ("security", .string "NONE"),
      ("ipConfiguration", .object [("proxySettings", .object [("NONE", .null)])])]]

/-- The report on a backup of them. -/
def unplainReport : Report :=
  { version := ⟨1, 0⟩
    profiles := [{ ssid := "lab" }, { ssid := "home", security := .psk }, { ssid := "shop" },
      { ssid := "dock" }] }

theorem not_isPlain_of_mem_unplainRecords : ∀ v ∈ unplainRecords, ¬Record.IsPlain v := by
  simp only [unplainRecords, List.forall_mem_cons]
  refine ⟨?_, ?_, ?_, ?_, nofun⟩
  · rintro ⟨members, ⟨⟩, -⟩
  · rintro ⟨members, e, ⟨name, hname⟩, -⟩
    cases e
    cases hname
  · rintro ⟨members, e, -, hpolicy⟩
    cases e
    obtain h | ⟨modes, h, -⟩ := hpolicy _ rfl <;> cases h
  · rintro ⟨members, e, -, hpolicy⟩
    cases e
    obtain h | ⟨modes, h, hmodes⟩ := hpolicy _ rfl
    · cases h
    · cases h
      obtain ⟨name, hname⟩ := hmodes.proxySettings _ rfl
      cases hname

/-- Not only plain records are restored. -/
theorem unplain_restored :
    (¬∀ v p, Record.decode v = .ok p → Record.IsPlain v) ∧
      (∀ v ∈ unplainRecords, ¬Record.IsPlain v) ∧
      (decode {} (Json.print .compact (Envelope.current unplainRecords).toJson)).report =
        .ok unplainReport := by
  refine ⟨fun h => ?_, not_isPlain_of_mem_unplainRecords, eq_ok_of_toOption (by decide +kernel)⟩
  have hlab : Record.decode (.array [.string "lab", .null, .string "NONE"]) =
      .ok { ssid := "lab" } := by decide +kernel
  exact not_isPlain_of_mem_unplainRecords _ List.mem_cons_self (h _ _ hlab)

end WirelessArchive
