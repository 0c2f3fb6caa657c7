import WirelessArchive.Proofs.Json.Structure

/-!
# Forms of structures and variants

A structure is an object, but an array is read as one, too, by position; and a variant is a name,
but an object with `null` under its name is read as one, too.  An object restates a value if it
gives for each member what the value gives for it, in plain form (`Restates`).  The two are read
alike (`Restates.read_iff`), and a value that is read has such an object (`exists_restates`): there
are no further forms.
-/

namespace WirelessArchive.Json

/-! ## Variants -/

/-- The value names a variant: it is the name, or an object in which no other key occurs, with
`null` under it. -/
inductive Names : Json → String → Prop where
  | text (name : String) : Names (.string name) name
  | key {members : List (String × Json)} {name : String} : (∀ m ∈ members, m.1 = name) →
    member? members name = some .null → Names (.object members) name

theorem soleMember?_eq_some_iff {members : List (String × Json)} {name : String} {v : Json} :
    soleMember? members = some (name, v) ↔
      (∀ m ∈ members, m.1 = name) ∧ member? members name = some v := by
  have hmem : (∀ m ∈ members, m.1 = name) ↔ ∀ m ∈ members.reverse, m.1 = name := by
    simp only [List.mem_reverse]
  rw [hmem, member?, soleMember?]
  cases members.reverse with
  | nil => simp
  | cons m earlier =>
    obtain ⟨key, value⟩ := m
    by_cases hkey : key = name
    · subst hkey
      simp [List.lookup_cons_self]
    · simp [hkey]

/-- A named variant is read as its name is. -/
theorem Names.asVariant_eq {α : Type} {table : List (String × α)} {v : Json} {name : String}
    (h : Names v name) : asVariant table v = variantNamed table name := by
  cases h with
  | text => rfl
  | key hkeys hnull =>
    rw [asVariant, soleMember?_eq_some_iff.2 ⟨hkeys, hnull⟩]
    dsimp only
    cases variantNamed table name <;> rfl

theorem exists_names_of_asVariant {α : Type} {table : List (String × α)} {v : Json} {a : α}
    (h : asVariant table v = .ok a) : ∃ name, Names v name := by
  cases v with
  | string name => exact ⟨name, .text name⟩
  | object members =>
    rw [asVariant] at h
    split at h
    · cases h
    · next name value hsole =>
      obtain ⟨hkeys, hvalue⟩ := soleMember?_eq_some_iff.1 hsole
      have hunit : asUnit value = .ok () := by
        revert h
        cases variantNamed table name with
        | error e => rintro ⟨⟩
        | ok b =>
          cases asUnit value with
          | error e => rintro ⟨⟩
          | ok u => exact fun _ => rfl
      cases value with
      | null => exact ⟨name, .key hkeys hvalue⟩
      | _ => cases hunit
  | _ => cases h

/-- The plain form of a member that names a variant. -/
inductive NamesPlainly : Option Json → Option Json → Prop where
  | absent : NamesPlainly none none
  | given {v : Json} {name : String} : Names v name → NamesPlainly (some v) (some (.string name))

theorem NamesPlainly.denotes_iff {α : Type} {table : List (String × α)} {default a : α}
    {x y : Option Json} (h : NamesPlainly x y) :
    Denotes (asVariant table) default x a ↔ Denotes (asVariant table) default y a := by
  cases h with
  | absent => rfl
  | given hv =>
    show asVariant table _ = _ ↔ asVariant table _ = _
    rw [hv.asVariant_eq, (Names.text _).asVariant_eq]

theorem exists_namesPlainly {α : Type} {table : List (String × α)} {default a : α}
    {x : Option Json} (h : Denotes (asVariant table) default x a) : ∃ y, NamesPlainly x y := by
  cases x with
  | none => exact ⟨none, .absent⟩
  | some v =>
    obtain ⟨name, hname⟩ := exists_names_of_asVariant h
    exact ⟨_, .given hname⟩

/-- A member that names a variant and is not an object is a name. -/
theorem eq_string_of_denotes {α : Type} {table : List (String × α)} {default a : α}
    {x : Option Json} (h : Denotes (asVariant table) default x a)
    (hx : ∀ members, x ≠ some (.object members)) {v : Json} (hv : x = some v) :
    ∃ name, v = .string name := by
  subst hv
  obtain ⟨name, hname⟩ := exists_names_of_asVariant h
  cases hname with
  | text => exact ⟨name, rfl⟩
  | key => exact absurd rfl (hx _)

theorem NamesPlainly.isSome_eq {x y : Option Json} (h : NamesPlainly x y) :
    x.isSome = y.isSome := by
  cases h <;> rfl

/-- What is named plainly is a string. -/
theorem NamesPlainly.eq_string {x y : Option Json} (h : NamesPlainly x y) {v : Json}
    (hv : y = some v) : ∃ name, v = .string name := by
  cases h with
  | absent => cases hv
  | given => exact ⟨_, (Option.some.inj hv).symm⟩

theorem namesPlainly_self {x : Option Json} (h : ∀ v, x = some v → ∃ name, v = .string name) :
    NamesPlainly x x := by
  cases x with
  | none => exact .absent
  | some v =>
    obtain ⟨name, rfl⟩ := h v rfl
    exact .given (.text name)

/-! ## Structures -/

namespace Schema

variable {μ ρ : Type} [BEq μ]

/-- The members of an object give what the value gives for each member, in plain form. -/
structure Restates (schema : Schema μ) (Plainly : μ → Option Json → Option Json → Prop) (v : Json)
    (members : List (String × Json)) : Prop where
  form : schema.IsForm v
  plainly : ∀ m, Plainly m (schema.slot? v m) (member? members (schema.key m))

/-- The laws of plain forms: each stands for what it is the form of, and what is read has one. -/
structure PlainForms (Has : ρ → μ → Option Json → Prop)
    (Plainly : μ → Option Json → Option Json → Prop) : Prop where
  has_iff : ∀ {m x y}, Plainly m x y → ∀ r, Has r m x ↔ Has r m y
  isSome_eq : ∀ {m x y}, Plainly m x y → x.isSome = y.isSome
  exists_plainly : ∀ {r m x}, Has r m x → ∃ y, Plainly m x y

variable [LawfulBEq μ] {schema : Schema μ} {put : ρ → μ → Json → Read ρ} {blank : ρ}
  {Has : ρ → μ → Option Json → Prop} {Plainly : μ → Option Json → Option Json → Prop}

/-- A value and an object that restates it are read alike. -/
theorem Restates.read_iff (h : schema.Fields put blank Has) (hdeclared : schema.declared.Nodup)
    (hplain : PlainForms Has Plainly) {v : Json} {members : List (String × Json)}
    (hv : schema.Restates Plainly v members) {r : ρ} :
    schema.read put blank v = .ok r ↔ schema.read put blank (.object members) = .ok r := by
  rw [Schema.read_iff h hdeclared, and_iff_right hv.form, read_object_iff h]
  refine and_congr (forall_congr' fun m => hplain.has_iff (hv.plainly m) r) ?_
  refine forall_congr' fun m => forall_congr' fun _ => ?_
  rw [hplain.isSome_eq (hv.plainly m)]

/-- A value that is read is restated by some object. -/
theorem exists_restates (h : schema.Fields put blank Has) (hdeclared : schema.declared.Nodup)
    (hplain : PlainForms Has Plainly) {v : Json} {r : ρ} (hv : schema.read put blank v = .ok r) :
    ∃ members, schema.Restates Plainly v members := by
  obtain ⟨hform, hhas, -⟩ := (Schema.read_iff h hdeclared).1 hv
  have hchoice : ∀ m, ∃ y, Plainly m (schema.slot? v m) y := fun m => hplain.exists_plainly (hhas m)
  choose value? hvalue using hchoice
  refine ⟨schema.declared.filterMap fun m => (value? m).map (schema.key m, ·), hform, fun m => ?_⟩
  rw [member?_written h value? m]
  exact hvalue m

end Schema

end WirelessArchive.Json
