import WirelessArchive.Archive.Decode
import WirelessArchive.Proofs.Json.Agreement

/-!
# Records of newer writers

A newer writer may add members to a record and to its addressing part, and may name flags that are
not known (`Extended`).  None of this has any effect: the extended record is read as one that
differs in names of unknown flags alone, these are no part of the profile (`known`), and a record
that cannot be read fails for the same reason as before (`decode_of_extended`).
-/

namespace WirelessArchive

open Json (Agree Read)

/-! ## Addressing parts -/

/-- The members of an addressing part stay, and members under other keys may be added. -/
abbrev AddressingRecord.Extended : Json → Json → Prop :=
  AddressingRecord.schema.Alike fun _ => Eq

theorem AddressingRecord.ofJson_of_extended {v v' : Json} (h : Extended v v') :
    ofJson v = ofJson v' := by
  apply Agree.eq
  refine Json.Schema.read_agree (R := Eq) (fun _ => rfl) ?_ _ h
  rintro t _ m x _ rfl rfl
  exact .refl (fun _ => rfl) _

theorem AddressingRecord.asOption_of_extended {v v' : Json} (h : Extended v v') :
    Json.asOption ofJson v = Json.asOption ofJson v' := by
  have hread := congrArg (Except.map some) (ofJson_of_extended h)
  cases h with
  | same => rfl
  | object => exact hread
  | array => exact hread

/-! ## Lists of names -/

/-- Names that are no flags of a kind are inserted into a list of names. -/
inductive Inserted (α : Type) [Flag α] : List Json → List Json → Prop where
  | nil : Inserted α [] []
  | keep (v : Json) {items items' : List Json} :
    Inserted α items items' → Inserted α (v :: items) (v :: items')
  | insert {name : String} {items items' : List Json} : Flag.parse? (α := α) name = none →
    Inserted α items items' → Inserted α items (.string name :: items')

/-- A list of names may get names that are no flags of the kind; another value stays. -/
inductive FlagsExtended (α : Type) [Flag α] : Json → Json → Prop where
  | same (v : Json) : FlagsExtended α v v
  | array {items items' : List Json} : Inserted α items items' →
    FlagsExtended α (.array items) (.array items')

/-- The names of a list that are flags of a kind. -/
def knownNames (α : Type) [Flag α] (names : List String) : List String :=
  names.filter fun name => (Flag.parse? (α := α) name).isSome

/-- The lists give the same flags in the same order. -/
def SameFlags (α : Type) [Flag α] (names names' : List String) : Prop :=
  knownNames α names = knownNames α names'

section Flags

variable {α : Type} [Flag α]

theorem Inserted.trans {l m n : List Json} (h : Inserted α l m) (h' : Inserted α m n) :
    Inserted α l n := by
  induction h' generalizing l with
  | nil => exact h
  | insert hname _ ih => exact .insert hname (ih h)
  | keep v _ ih =>
    cases h with
    | keep _ h => exact .keep v (ih h)
    | insert hname h => exact .insert hname (ih h)

theorem FlagsExtended.trans {v w u : Json} (h : FlagsExtended α v w) (h' : FlagsExtended α w u) :
    FlagsExtended α v u := by
  cases h with
  | same => exact h'
  | array h =>
    cases h' with
    | same => exact .array h
    | array h' => exact .array (h.trans h')

theorem SameFlags.refl (names : List String) : SameFlags α names names := rfl

theorem flags_knownNames (names : List String) :
    Record.flags α (knownNames α names) = Record.flags α names := by
  rw [Record.flags, Record.flags, knownNames, List.filterMap_filter]
  congr 2
  funext name
  cases Flag.parse? (α := α) name <;> rfl

theorem agree_of_inserted {items items' : List Json} (h : Inserted α items items') :
    Agree (SameFlags α) (items.mapM Json.asString) (items'.mapM Json.asString) := by
  -- a value that is kept may be no string; then both lists fail at it, whatever was inserted before
  induction h with
  | nil => exact .ok rfl
  | keep v _ ih =>
    rw [List.mapM_cons, List.mapM_cons]
    refine (Agree.refl (fun _ => rfl) (Json.asString v)).bind fun name _ (hname : name = _) => ?_
    subst hname
    refine ih.bind fun names names' hnames => .ok ?_
    simp only [SameFlags, knownNames, List.filter_cons] at hnames ⊢
    rw [hnames]
  | @insert name items items' hname _ ih =>
    have hskip : (Json.string name :: items').mapM Json.asString =
        (items'.mapM Json.asString).map (name :: ·) := by
      rw [List.mapM_cons]
      rfl
    have hmap : (items.mapM Json.asString).map id = items.mapM Json.asString := by
      cases items.mapM Json.asString <;> rfl
    rw [hskip, ← hmap]
    refine ih.map fun names names' hnames => ?_
    have hunknown : knownNames α (name :: names') = knownNames α names' :=
      List.filter_cons_of_neg (by simp [hname])
    exact hnames.trans hunknown.symm

theorem agree_of_flagsExtended {v v' : Json} (h : FlagsExtended α v v') :
    Agree (SameFlags α) (Json.asList Json.asString v) (Json.asList Json.asString v') := by
  cases h with
  | same => exact .refl .refl _
  | array h => exact agree_of_inserted h

end Flags

/-! ## Records -/

namespace Record

/-- How the value of a member may be extended. -/
def MemberExtended : Member → Json → Json → Prop
  | .keyManagement => FlagsExtended KeyManagement
  | .protocols => FlagsExtended Protocol
  | .authAlgorithms => FlagsExtended AuthAlgorithm
  | .ipConfiguration => AddressingRecord.Extended
  | _ => Eq

/-- The members of a record stay or are extended, and members under other keys may be added. -/
abbrev Extended : Json → Json → Prop := schema.Alike MemberExtended

theorem memberExtended_refl (m : Member) (x : Json) : MemberExtended m x x := by
  cases m <;> first | rfl | exact .same x

theorem memberExtended_trans (m : Member) (x y z : Json) (h : MemberExtended m x y)
    (h' : MemberExtended m y z) : MemberExtended m x z := by
  cases m with
  | keyManagement => exact FlagsExtended.trans h h'
  | protocols => exact FlagsExtended.trans h h'
  | authAlgorithms => exact FlagsExtended.trans h h'
  | ipConfiguration => exact Json.Schema.Alike.trans (fun _ _ _ _ h h' => h.trans h') h h'
  | _ => exact Eq.trans h h'

/-- The record without the names that are no flags. -/
def known (r : Record) : Record :=
  { r with
    keyManagement := knownNames KeyManagement r.keyManagement
    protocols := knownNames Protocol r.protocols
    authAlgorithms := knownNames AuthAlgorithm r.authAlgorithms }

/-- The records differ in names of unknown flags alone. -/
def SameKnown (r r' : Record) : Prop := r.known = r'.known

theorem SameKnown.refl (r : Record) : SameKnown r r := rfl

theorem toProfile_known (r : Record) : r.known.toProfile = r.toProfile := by
  have hdescribes : r.known.describes = r.describes := by
    funext ipConfig wepKeys
    simp only [describes, known, flags_knownNames]
    rfl
  rw [toProfile, hdescribes]
  rfl

theorem put_agree (t t' : Record) (m : Member) (x x' : Json) (ht : SameKnown t t')
    (hx : MemberExtended m x x') : Agree SameKnown (put t m x) (put t' m x') := by
  simp only [SameKnown, known, mk.injEq] at ht
  cases m with
  | keyManagement | protocols | authAlgorithms =>
    refine (agree_of_flagsExtended hx).map fun names names' hnames => ?_
    rw [SameFlags] at hnames
    simp [SameKnown, known, ht, hnames]
  | ipConfiguration =>
    rw [put, put, AddressingRecord.asOption_of_extended hx]
    exact .map_same (fun a => by simp [SameKnown, known, ht]) _
  | _ =>
    obtain rfl := hx
    exact .map_same (fun a => by simp [SameKnown, known, ht]) _

/-- An extended record is decoded as before. -/
theorem decode_of_extended {v v' : Json} (h : Extended v v') : decode v = decode v' := by
  have hread : Agree SameKnown (ofJson v) (ofJson v') :=
    Json.Schema.read_agree SameKnown.refl put_agree _ h
  unfold decode
  generalize ofJson v = r at hread
  generalize ofJson v' = r' at hread
  cases hread with
  | error e => rfl
  | @ok r r' hr =>
    show r.toProfile = r'.toProfile
    rw [← toProfile_known, hr, toProfile_known]

end Record

theorem Outcome.ofJson_of_extended {v v' : Json} (h : Record.Extended v v') :
    ofJson v = ofJson v' := by
  rw [ofJson, ofJson, Record.decode_of_extended h]

end WirelessArchive
