import Mathlib.Data.List.Forall2
import WirelessArchive.Json.Schema

/-!
# Values that are read alike

Two lists of which the items are related are read alike if the items are (`ItemsAlike`).

Two values are `Alike` for a structure if they give its members in the same form, as objects or as
arrays, and each member by values that are related.  Keys that the structure does not know play no
part, nor does the order of the keys that it knows.  If a step of the reader takes related members
to related records, then so does the whole reader: it fails on both values in the same way, or gives
related records for them (`read_agree`).
-/

namespace WirelessArchive.Json

/-- The outcomes of two readers agree: both fail in the same way, or their results are related. -/
inductive Agree {α β : Type} (R : α → β → Prop) : Read α → Read β → Prop where
  | ok {a : α} {b : β} : R a b → Agree R (.ok a) (.ok b)
  | error (e : Mismatch) : Agree R (.error e) (.error e)

namespace Agree

variable {α β α' β' : Type} {R : α → β → Prop} {S : α' → β' → Prop}

theorem refl {R : α → α → Prop} (h : ∀ a, R a a) (x : Read α) : Agree R x x := by
  cases x with
  | error e => exact .error e
  | ok a => exact .ok (h a)

theorem eq {x y : Read α} (h : Agree Eq x y) : x = y := by
  cases h with
  | ok h => rw [h]
  | error => rfl

theorem map {x : Read α} {y : Read β} {f : α → α'} {g : β → β'} (h : Agree R x y)
    (hfg : ∀ a b, R a b → S (f a) (g b)) : Agree S (x.map f) (y.map g) := by
  cases h with
  | ok h => exact .ok (hfg _ _ h)
  | error e => exact .error e

/-- Two functions may be applied to what one reader gives. -/
theorem map_same {f : α → α'} {g : α → β'} (h : ∀ a, S (f a) (g a)) (x : Read α) :
    Agree S (x.map f) (x.map g) := by
  cases x with
  | ok a => exact .ok (h a)
  | error e => exact .error e

theorem bind {x : Read α} {y : Read β} {f : α → Read α'} {g : β → Read β'} (h : Agree R x y)
    (hfg : ∀ a b, R a b → Agree S (f a) (g b)) : Agree S (x >>= f) (y >>= g) := by
  cases h with
  | ok h => exact hfg _ _ h
  | error e => exact .error e

theorem after {x : Read α} {y : Read β} (check : Read Unit) (h : Agree R x y) :
    Agree R (check >>= fun _ => x) (check >>= fun _ => y) := by
  cases check with
  | ok _ => exact h
  | error e => exact .error e

theorem foldlM {step : α → α' → Read α} {step' : β → β' → Read β}
    (hstep : ∀ s t x y, R s t → S x y → Agree R (step s x) (step' t y)) {l : List α'}
    {l' : List β'} (hl : List.Forall₂ S l l') {s : α} {t : β} (h : R s t) :
    Agree R (l.foldlM step s) (l'.foldlM step' t) := by
  induction hl generalizing s t with
  | nil => exact .ok h
  | cons hx _ ih =>
    rw [List.foldlM_cons, List.foldlM_cons]
    exact (hstep _ _ _ _ h hx).bind fun _ _ => ih

theorem mapM {read : α → Read α'} {read' : β → Read β'}
    (hread : ∀ x y, R x y → Agree S (read x) (read' y)) {l : List α} {l' : List β}
    (hl : List.Forall₂ R l l') : Agree (List.Forall₂ S) (l.mapM read) (l'.mapM read') := by
  induction hl with
  | nil => exact .ok .nil
  | cons hx _ ih =>
    rw [List.mapM_cons, List.mapM_cons]
    exact (hread _ _ hx).bind fun _ _ ha => ih.bind fun _ _ hl => .ok (.cons ha hl)

end Agree

/-! ## Lists -/

theorem forall₂_trans {α : Type} {R : α → α → Prop} (hR : ∀ x y z, R x y → R y z → R x z)
    {l m n : List α} (h : List.Forall₂ R l m) (h' : List.Forall₂ R m n) : List.Forall₂ R l n := by
  induction h generalizing n with
  | nil => exact h'
  | cons hx _ ih =>
    cases h' with
    | cons hy h' => exact .cons (hR _ _ _ hx hy) (ih h')

/-- The items of a list differ as `R` allows; a value that is no list stays. -/
inductive ItemsAlike (R : Json → Json → Prop) : Json → Json → Prop where
  | same (v : Json) : ItemsAlike R v v
  | array {items items' : List Json} : List.Forall₂ R items items' →
    ItemsAlike R (.array items) (.array items')

theorem ItemsAlike.trans {R : Json → Json → Prop} (hR : ∀ x y z, R x y → R y z → R x z)
    {v w u : Json} (h : ItemsAlike R v w) (h' : ItemsAlike R w u) : ItemsAlike R v u := by
  cases h with
  | same => exact h'
  | array h =>
    cases h' with
    | same => exact .array h
    | array h' => exact .array (forall₂_trans hR h h')

theorem asList_agree {α : Type} {R : Json → Json → Prop} {S : α → α → Prop} {read : Json → Read α}
    (hS : ∀ a, S a a) (hread : ∀ x y, R x y → Agree S (read x) (read y)) {v w : Json}
    (h : ItemsAlike R v w) : Agree (List.Forall₂ S) (asList read v) (asList read w) := by
  cases h with
  | same v => exact .refl (fun _ => List.forall₂_same.2 fun a _ => hS a) _
  | array h => exact .mapM hread h

/-! ## Structures -/

namespace Schema

variable {μ ρ : Type} {schema : Schema μ}

/-- The values give a structure in the same form, with members that differ as `E` allows. -/
inductive Alike (schema : Schema μ) (E : μ → Json → Json → Prop) : Json → Json → Prop where
  | same (v : Json) : Alike schema E v v
  | object {members members' : List (String × Json)} :
    (∀ m, Option.Rel (E m) (member? members (schema.key m)) (member? members' (schema.key m))) →
    Alike schema E (.object members) (.object members')
  | array {items items' : List Json} : items.length = items'.length →
    (∀ (i : Nat) (m : μ), schema.declared[i]? = some m → Option.Rel (E m) items[i]? items'[i]?) →
    Alike schema E (.array items) (.array items')

section Edits

variable {E : μ → Json → Json → Prop}

theorem member?_append (front back : List (String × Json)) (key : String) :
    member? (front ++ back) key = (member? back key).or (member? front key) := by
  rw [member?, List.reverse_append, List.lookup_append]
  rfl

theorem rel_refl (hE : ∀ m x, E m x x) (m : μ) (x : Option Json) : Option.Rel (E m) x x := by
  cases x with
  | none => exact .none
  | some y => exact .some (hE m y)

/-- A member under a key that the structure does not know may be added anywhere. -/
theorem alike_insert (hE : ∀ m x, E m x x) (front back : List (String × Json)) {key : String}
    (hkey : ∀ m, schema.key m ≠ key) (x : Json) :
    schema.Alike E (.object (front ++ back)) (.object (front ++ (key, x) :: back)) := by
  refine .object fun m => ?_
  have hm : member? ((key, x) :: back) (schema.key m) = member? back (schema.key m) := by
    have hne : (schema.key m == key) = false := beq_false_of_ne (hkey m)
    rw [← List.singleton_append, member?_append]
    simp [member?, List.lookup_cons, hne]
  rw [member?_append, member?_append, hm]
  exact rel_refl hE m _

/-- The value of a member may be replaced wherever the member stands. -/
theorem alike_replace (hE : ∀ m x, E m x x) (hkey : ∀ m n, schema.key m = schema.key n → m = n)
    (front back : List (String × Json)) {m : μ} {x x' : Json} (h : E m x x') :
    schema.Alike E (.object (front ++ (schema.key m, x) :: back))
      (.object (front ++ (schema.key m, x') :: back)) := by
  refine .object fun n => ?_
  rw [← List.singleton_append, ← List.singleton_append (x := (schema.key m, x'))]
  simp only [member?_append]
  cases member? back (schema.key n) with
  | some y => exact .some (hE n y)
  | none =>
    by_cases hn : n = m
    · subst hn
      simpa [member?] using Option.Rel.some h
    · have hne : (schema.key n == schema.key m) = false := beq_false_of_ne fun e => hn (hkey n m e)
      simpa [member?, List.lookup_cons, hne] using rel_refl hE n _

theorem rel_trans (hE : ∀ m x y z, E m x y → E m y z → E m x z) {m : μ} {x y z : Option Json}
    (h : Option.Rel (E m) x y) (h' : Option.Rel (E m) y z) : Option.Rel (E m) x z := by
  cases h with
  | none => exact h'
  | some h =>
    cases h' with
    | some h' => exact .some (hE _ _ _ _ h h')

/-- Several changes may be made one after the other. -/
theorem Alike.trans (hE : ∀ m x y z, E m x y → E m y z → E m x z) {v w u : Json}
    (h : schema.Alike E v w) (h' : schema.Alike E w u) : schema.Alike E v u := by
  cases h with
  | same => exact h'
  | object h =>
    cases h' with
    | same => exact .object h
    | object h' => exact .object fun m => rel_trans hE (h m) (h' m)
  | array hlength h =>
    cases h' with
    | same => exact .array hlength h
    | array hlength' h' =>
      exact .array (hlength.trans hlength') fun i m hi => rel_trans hE (h i m hi) (h' i m hi)

end Edits

/-- The slots hold related values for the same members. -/
def SlotsAlike (E : μ → Json → Json → Prop) : List (μ × Json) → List (μ × Json) → Prop :=
  List.Forall₂ fun p p' => p.1 = p'.1 ∧ E p.1 p.2 p'.2

variable {E : μ → Json → Json → Prop}

theorem slotsAlike_filterMap {given given' : μ → Option Json}
    (h : ∀ m, Option.Rel (E m) (given m) (given' m)) (l : List μ) :
    SlotsAlike E (l.filterMap fun m => (given m).map (m, ·))
      (l.filterMap fun m => (given' m).map (m, ·)) := by
  refine List.rel_filterMap (R := Eq) ?_ (List.forall₂_refl l)
  rintro m _ rfl
  have hm := h m
  show Option.Rel _ ((given m).map (m, ·)) ((given' m).map (m, ·))
  generalize given m = x at hm ⊢
  generalize given' m = x' at hm ⊢
  cases hm with
  | some hx => exact .some ⟨rfl, hx⟩
  | none => exact .none

theorem slotsAlike_zip {l : List μ} {items items' : List Json}
    (h : ∀ (i : Nat) (m : μ), l[i]? = some m → Option.Rel (E m) items[i]? items'[i]?) :
    SlotsAlike E (l.zip items) (l.zip items') := by
  induction l generalizing items items' with
  | nil => exact .nil
  | cons m l ih =>
    have hm := h 0 m rfl
    cases items with
    | nil =>
      cases items' with
      | nil => exact .nil
      | cons v' items' => cases hm
    | cons v items =>
      cases items' with
      | nil => cases hm
      | cons v' items' =>
        cases hm with
        | some hv => exact .cons ⟨rfl, hv⟩ (ih fun i m hi => h (i + 1) m hi)

variable [BEq μ]

theorem noneMissing_slotsAlike {v v' : Json}
    (hmissing : ∀ m, schema.missing v m = schema.missing v' m) {l l' : List (μ × Json)}
    (h : SlotsAlike E l l') : schema.noneMissing v l = schema.noneMissing v' l' := by
  have hany : ∀ m, (l.any fun p => p.1 == m) = l'.any fun p => p.1 == m := by
    intro m
    induction h with
    | nil => rfl
    | cons hp _ ih => rw [List.any_cons, List.any_cons, hp.1, ih]
  simp only [noneMissing, hany, hmissing]

variable {put : ρ → μ → Json → Read ρ} {R : ρ → ρ → Prop}

/-- Structures are read alike if their slots are, and if neither lacks or has more than the
other. -/
theorem read_agree_of_slots
    (hput : ∀ t t' m x x', R t t' → E m x x' → Agree R (put t m x) (put t' m x')) {blank : ρ}
    (hblank : R blank blank) {v v' : Json} {l l' : List (μ × Json)} (hl : schema.slots v = .ok l)
    (hl' : schema.slots v' = .ok l') (hslots : SlotsAlike E l l')
    (hmissing : ∀ m, schema.missing v m = schema.missing v' m)
    (hsurplus : schema.noSurplus v = schema.noSurplus v') :
    Agree R (schema.read put blank v) (schema.read put blank v') := by
  have hfold : Agree R (l.foldlM (fun r (p : μ × Json) => put r p.1 p.2) blank)
      (l'.foldlM (fun r (p : μ × Json) => put r p.1 p.2) blank) := by
    refine Agree.foldlM ?_ hslots hblank
    rintro t t' ⟨m, x⟩ ⟨_, x'⟩ ht ⟨rfl, hx⟩
    exact hput t t' m x x' ht hx
  rw [read, read, hl, hl']
  refine hfold.bind fun t t' ht => ?_
  rw [noneMissing_slotsAlike hmissing hslots, hsurplus]
  exact .after _ (.after _ (.ok ht))

/-- Values that are alike are read alike. -/
theorem read_agree (hrefl : ∀ r, R r r)
    (hput : ∀ t t' m x x', R t t' → E m x x' → Agree R (put t m x) (put t' m x')) (blank : ρ)
    {v v' : Json} (h : schema.Alike E v v') :
    Agree R (schema.read put blank v) (schema.read put blank v') := by
  cases h with
  | same v => exact .refl hrefl _
  | object h =>
    exact read_agree_of_slots hput (hrefl blank) rfl rfl (slotsAlike_filterMap h _) (fun _ => rfl)
      rfl
  | array hlength h =>
    refine read_agree_of_slots hput (hrefl blank) rfl rfl (slotsAlike_zip h) (fun _ => rfl) ?_
    simp only [noSurplus, hlength]

end Schema

end WirelessArchive.Json
