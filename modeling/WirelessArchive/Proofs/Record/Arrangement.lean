import Mathlib.Data.Set.List
import WirelessArchive.Proofs.Json.Arrangement
import WirelessArchive.Proofs.Record.Extension
import WirelessArchive.Proofs.Record.Grammar

/-!
# Records in another arrangement

The members of a record and those of its addressing part may change places, and a member that a
later one overrides may be left out.  The same is read of the record then, and one that cannot be
read fails for the same reason (`ofJson_of_rearranged`).

A list of flags stands for a set.  If the lists in a record are replaced by others with the same
entries, the profile stays (`decode_of_reflagged`); a record without a profile still has none, but
of several entries that are no strings, another may be reported.
-/

namespace WirelessArchive

open Json (Agree Denotes IsList IsText)

/-! ## Addressing parts -/

/-- The members of an addressing part change places, or are left out if they are overridden. -/
abbrev AddressingRecord.Rearranged : Json → Json → Prop :=
  AddressingRecord.schema.Arranged fun _ => Eq

theorem AddressingRecord.extended_of_rearranged {v v' : Json} (h : Rearranged v v') :
    Extended v v' :=
  h.alike fields.key_injective (fun _ _ => rfl) (fun _ _ _ _ h h' => h.trans h') fun _ _ _ h => h

/-! ## Lists of flags -/

/-- The lists have the same entries, in whatever order and number; another value stays. -/
inductive SameEntries : Json → Json → Prop where
  | same (v : Json) : SameEntries v v
  | array {items items' : List Json} : (∀ v, v ∈ items ↔ v ∈ items') →
    SameEntries (.array items) (.array items')

namespace SameEntries

theorem symm {v w : Json} (h : SameEntries v w) : SameEntries w v := by
  cases h with
  | same => exact .same v
  | array h => exact .array fun x => (h x).symm

theorem trans {v w u : Json} (h : SameEntries v w) (h' : SameEntries w u) : SameEntries v u := by
  cases h with
  | same => exact h'
  | array h =>
    cases h' with
    | same => exact .array h
    | array h' => exact .array fun x => (h x).trans (h' x)

end SameEntries

theorem reads_names_iff {items : List Json} {names : List String} :
    Denotes (Json.asList Json.asString) [] (some (.array items)) names ↔
      names.map .string = items := by
  refine (Json.reads_text.list _ _).trans ⟨?_, ?_⟩
  · rintro ⟨h⟩
    induction h with
    | nil => rfl
    | cons hv _ ih =>
      obtain rfl := hv
      rw [List.map_cons, ih]
  · rintro rfl
    refine ⟨?_⟩
    rw [List.forall₂_map_left_iff]
    exact List.forall₂_same.2 fun _ _ => rfl

/-- If one of two lists with the same entries is a list of names, then so is the other. -/
theorem SameEntries.exists_names {x x' : Option Json} {names : List String}
    (h : Option.Rel SameEntries x x') (hx : Denotes (Json.asList Json.asString) [] x names) :
    ∃ names', Denotes (Json.asList Json.asString) [] x' names' ∧
      ∀ name, name ∈ names' ↔ name ∈ names := by
  cases h with
  | none => exact ⟨names, hx, fun _ => Iff.rfl⟩
  | some h =>
    cases h with
    | same => exact ⟨names, hx, fun _ => Iff.rfl⟩
    | @array items items' hmem =>
      obtain rfl := reads_names_iff.1 hx
      have hnames : ∀ v ∈ items', v ∈ Set.range Json.string := by
        intro v hv
        obtain ⟨name, -, rfl⟩ := List.mem_map.1 ((hmem v).2 hv)
        exact ⟨name, rfl⟩
      obtain ⟨names', rfl⟩ : items' ∈ Set.range (List.map Json.string) := by
        rwa [Set.range_list_map]
      refine ⟨names', reads_names_iff.2 rfl, fun name => ?_⟩
      have hstring : Function.Injective Json.string := fun _ _ => Json.string.inj
      rw [← List.mem_map_of_injective hstring, ← hmem, List.mem_map_of_injective hstring]

/-! ## Records -/

namespace Record

/-- How the value of a member may be rearranged; the lists of flags may be changed as `flags`
allows. -/
def MemberRearranged (flags : Json → Json → Prop) : Member → Json → Json → Prop
  | .keyManagement => flags
  | .protocols => flags
  | .authAlgorithms => flags
  | .ipConfiguration => AddressingRecord.Rearranged
  | _ => Eq

/-- The members of a record and of its addressing part change places, or are left out if they are
overridden, and the lists of flags are changed as `flags` allows. -/
abbrev Rearranged (flags : Json → Json → Prop) : Json → Json → Prop :=
  schema.Arranged (MemberRearranged flags)

/-- How the value of a member may differ without a change of places to be seen. -/
def MemberAlike (flags : Json → Json → Prop) : Member → Json → Json → Prop
  | .keyManagement => flags
  | .protocols => flags
  | .authAlgorithms => flags
  | .ipConfiguration => AddressingRecord.Extended
  | _ => Eq

section Alike

variable {flags : Json → Json → Prop}

theorem memberAlike_refl (hflags : ∀ v, flags v v) (m : Member) (x : Json) :
    MemberAlike flags m x x := by
  cases m <;> first | rfl | exact hflags x | exact .same x

theorem memberAlike_trans (hflags : ∀ x y z, flags x y → flags y z → flags x z) (m : Member)
    (x y z : Json) (h : MemberAlike flags m x y) (h' : MemberAlike flags m y z) :
    MemberAlike flags m x z := by
  cases m with
  | keyManagement | protocols | authAlgorithms => exact hflags x y z h h'
  | ipConfiguration => exact Json.Schema.Alike.trans (fun _ _ _ _ h h' => h.trans h') h h'
  | _ => exact Eq.trans h h'

theorem alike_of_rearranged (hrefl : ∀ v, flags v v)
    (htrans : ∀ x y z, flags x y → flags y z → flags x z) {v v' : Json}
    (h : Rearranged flags v v') : schema.Alike (MemberAlike flags) v v' := by
  refine h.alike fields.key_injective (memberAlike_refl hrefl) (memberAlike_trans htrans) ?_
  intro m x x' hx
  cases m with
  | ipConfiguration => exact AddressingRecord.extended_of_rearranged hx
  | _ => exact hx

end Alike

/-- A rearranged record is read as before, and fails as before. -/
theorem ofJson_of_rearranged {v v' : Json} (h : Rearranged Eq v v') : ofJson v = ofJson v' := by
  have halike := alike_of_rearranged (fun _ => rfl) (fun _ _ _ h h' => h.trans h') h
  refine Agree.eq (Json.Schema.read_agree (R := Eq) (fun _ => rfl) ?_ _ halike)
  rintro t _ m x x' rfl hx
  cases m with
  | ipConfiguration =>
    rw [put, put, AddressingRecord.asOption_of_extended hx]
    exact .refl (fun _ => rfl) _
  | _ =>
    obtain rfl := hx
    exact .refl (fun _ => rfl) _

/-! ## Records with other lists of flags -/

theorem flags_congr {α : Type} [Flag α] {names names' : List String}
    (h : ∀ name, name ∈ names' ↔ name ∈ names) : flags α names' = flags α names :=
  FlagSet.ofList_congr fun a => by simp only [List.mem_filterMap, h]

/-- Where the lists of flags have the same entries, the profile is the same. -/
theorem toProfile_reflagged (r : Record) {keyManagement protocols authAlgorithms : List String}
    (hmanagement : ∀ name, name ∈ keyManagement ↔ name ∈ r.keyManagement)
    (hprotocols : ∀ name, name ∈ protocols ↔ name ∈ r.protocols)
    (halgorithms : ∀ name, name ∈ authAlgorithms ↔ name ∈ r.authAlgorithms) :
    toProfile { r with keyManagement, protocols, authAlgorithms } = r.toProfile := by
  have hdescribes : describes { r with keyManagement, protocols, authAlgorithms } =
      r.describes := by
    funext ipConfig wepKeys
    simp only [describes, flags_congr hmanagement, flags_congr hprotocols,
      flags_congr halgorithms]
  rw [toProfile, hdescribes]
  rfl

section Reflagged

variable {v v' : Json}

theorem memberAlike_symm (m : Member) (x y : Json) (h : MemberAlike SameEntries m x y) :
    MemberAlike SameEntries m y x := by
  cases m with
  | keyManagement | protocols | authAlgorithms => exact SameEntries.symm h
  | ipConfiguration => exact Json.Schema.Alike.symm (fun _ _ _ h => h.symm) h
  | _ => exact Eq.symm h

theorem isForm_of_alike (h : schema.Alike (MemberAlike SameEntries) v v')
    (hv : schema.IsForm v) : schema.IsForm v' := by
  cases h with
  | same => exact hv
  | object => exact .object _
  | array hlength =>
    cases hv with
    | array hv => exact .array (hlength ▸ hv)

theorem isSome_of_rel {R : Json → Json → Prop} {x x' : Option Json} (h : Option.Rel R x x')
    (hx : x.isSome) : x'.isSome := by
  cases h with
  | none => exact hx
  | some => rfl

/-- What alike values give for a member. -/
theorem slot?_of_alike (h : schema.Alike (MemberAlike SameEntries) v v') (m : Member) :
    Option.Rel (MemberAlike SameEntries m) (schema.slot? v m) (schema.slot? v' m) := by
  cases h with
  | same => exact Json.Schema.rel_refl (memberAlike_refl .same) m _
  | object h => exact h m
  | array _ h => exact h _ m (List.getElem?_idxOf (fields.mem_declared m))

theorem denotes_of_eq {α : Type} {read : Json → Json.Read α} {default a : α} {x x' : Option Json}
    (h : Option.Rel Eq x x') (hx : Denotes read default x a) : Denotes read default x' a := by
  cases h with
  | none => exact hx
  | some h => exact h ▸ hx

theorem denotes_of_addressing {x x' : Option Json} {a : Option AddressingRecord}
    (h : Option.Rel AddressingRecord.Extended x x')
    (hx : Denotes (Json.asOption AddressingRecord.ofJson) none x a) :
    Denotes (Json.asOption AddressingRecord.ofJson) none x' a := by
  cases h with
  | none => exact hx
  | some h => exact (AddressingRecord.asOption_of_extended h).symm.trans hx

/-- Of alike values, the second denotes the profile of the first: all members but the lists of
flags are read as before, and these lists have the same entries. -/
theorem decode_of_alike (h : schema.Alike (MemberAlike SameEntries) v v') {p : Profile}
    (hp : decode v = .ok p) : decode v' = .ok p := by
  have hnodup : schema.declared.Nodup := by decide
  have hslot := slot?_of_alike h
  obtain ⟨r, hr, hprofile⟩ := decode_eq_ok_iff.1 hp
  obtain ⟨hform, hhas, hmandatory⟩ := (Json.Schema.read_iff fields hnodup).1 hr
  obtain ⟨keyManagement, hkeyManagement, hmanagement⟩ :=
    SameEntries.exists_names (hslot .keyManagement) (hhas .keyManagement)
  obtain ⟨protocols, hprotocols, hprotocol⟩ :=
    SameEntries.exists_names (hslot .protocols) (hhas .protocols)
  obtain ⟨authAlgorithms, hauthAlgorithms, halgorithm⟩ :=
    SameEntries.exists_names (hslot .authAlgorithms) (hhas .authAlgorithms)
  have hr' : ofJson v' = .ok { r with keyManagement, protocols, authAlgorithms } := by
    refine (Json.Schema.read_iff fields hnodup).2 ⟨isForm_of_alike h hform, fun m => ?_, ?_⟩
    · have hm := hslot m
      have hrm := hhas m
      cases m with
      | keyManagement => exact hkeyManagement
      | protocols => exact hprotocols
      | authAlgorithms => exact hauthAlgorithms
      | ipConfiguration => exact denotes_of_addressing hm hrm
      | _ => exact denotes_of_eq hm hrm
    · intro m hm
      exact isSome_of_rel (hslot m) (hmandatory m hm)
  exact decode_eq_ok_iff.2
    ⟨_, hr', (toProfile_reflagged r hmanagement hprotocol halgorithm).trans hprofile⟩

/-- Records that are rearranged, with the same flags in their lists, denote the same profile. -/
theorem decode_of_reflagged (h : Rearranged SameEntries v v') (p : Profile) :
    decode v = .ok p ↔ decode v' = .ok p := by
  have halike := alike_of_rearranged .same (fun _ _ _ => .trans) h
  exact ⟨decode_of_alike halike, decode_of_alike (halike.symm memberAlike_symm)⟩

end Reflagged

end Record

end WirelessArchive
