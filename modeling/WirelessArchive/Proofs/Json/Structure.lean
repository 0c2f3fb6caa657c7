import Mathlib.Data.List.Basic
import WirelessArchive.Json.Schema

/-!
# Structures

Reading a value as a structure is described member by member.  `Denotes read default x a` says
that `a` is what a member of the object stands for: the default if it is absent, and else what the
reader of its type makes of it.  A schema comes with a relation `Has r m x` that says this of the
member `m` of the record `r`; `Fields` collects the laws that tie it to the steps of the reader.

Under these laws the outcome is exact (`read_object_iff`): an object reads as the record that has
its members, if there is one and no mandatory member is absent.  Neither the order of the members
nor keys that the structure does not know appear in this statement.  An object that is written
member by member is read back under its keys (`member?_written`).  An array is read in the same way
by position (`read_array_iff`), and nothing else is read at all (`read_iff`).
-/

namespace WirelessArchive.Json

/-- What a member of an object stands for: the default if it is absent. -/
def Denotes {α : Type} (read : Json → Read α) (default : α) : Option Json → α → Prop
  | none, a => a = default
  | some v, a => read v = .ok a

theorem Denotes.unique {α : Type} {read : Json → Read α} {default : α} {x : Option Json} {a b : α}
    (ha : Denotes read default x a) (hb : Denotes read default x b) : a = b := by
  cases x with
  | none => exact Eq.trans ha (Eq.symm hb)
  | some v => exact Except.ok.inj (Eq.trans (Eq.symm ha) hb)

theorem Denotes.unique_of_exists {α : Type} {read : Json → Read α} {default a b : α}
    (h : ∃ x, Denotes read default x a ∧ Denotes read default x b) : a = b := by
  obtain ⟨x, ha, hb⟩ := h
  exact ha.unique hb

theorem map_eq_ok_iff {α β : Type} {f : α → β} {x : Read α} {b : β} :
    x.map f = .ok b ↔ ∃ a, x = .ok a ∧ f a = b := by
  cases x with
  | error e => simp [Except.map]
  | ok a => simp [Except.map]

namespace Schema

variable {μ ρ : Type}

/-- The relation between records and what is given for their members, and its laws: a step of the
reader settles one member and keeps the others, it succeeds where some record has the member, and
a record is determined by its members. -/
structure Fields (schema : Schema μ) (put : ρ → μ → Json → Read ρ) (blank : ρ)
    (Has : ρ → μ → Option Json → Prop) : Prop where
  key_injective : ∀ m n, schema.key m = schema.key n → m = n
  mem_declared : ∀ m, m ∈ schema.declared
  mem_byKey : ∀ m, m ∈ schema.byKey
  nodup_byKey : schema.byKey.Nodup
  blank_has : ∀ m, Has blank m none
  put_has : ∀ {t t' m v}, put t m v = .ok t' → Has t' m (some v)
  put_frame : ∀ {t t' m n v x}, put t m v = .ok t' → n ≠ m → Has t n x → Has t' n x
  put_of_has : ∀ {r m v} t, Has r m (some v) → ∃ t', put t m v = .ok t'
  has_unique : ∀ {t r}, (∀ m, ∃ x, Has t m x ∧ Has r m x) → t = r

variable {schema : Schema μ} {put : ρ → μ → Json → Read ρ} {blank : ρ}
  {Has : ρ → μ → Option Json → Prop}

/-! ## Objects that are written member by member -/

theorem lookup_filterMap_of_none (h : schema.Fields put blank Has)
    {value? : μ → Option Json} {m : μ} (hm : value? m = none) (l : List μ) :
    (l.filterMap fun m => (value? m).map (schema.key m, ·)).lookup (schema.key m) = none := by
  rw [List.lookup_eq_none_iff]
  intro p hp
  obtain ⟨n, -, hn⟩ := List.mem_filterMap.1 hp
  obtain ⟨v, hv, rfl⟩ := Option.map_eq_some_iff.1 hn
  rw [bne_iff_ne]
  intro hkey
  rw [h.key_injective m n hkey, hv] at hm
  cases hm

theorem lookup_filterMap_of_some (h : schema.Fields put blank Has) {value? : μ → Option Json}
    {m : μ} {v : Json} (hm : value? m = some v) {l : List μ} (hl : m ∈ l) :
    (l.filterMap fun m => (value? m).map (schema.key m, ·)).lookup (schema.key m) = some v := by
  induction l with
  | nil => cases hl
  | cons n l ih =>
    rw [List.filterMap_cons]
    by_cases hn : m = n
    · subst hn
      rw [hm]
      exact List.lookup_cons_self
    · have hl' := (List.mem_cons.1 hl).resolve_left hn
      cases value? n with
      | none => exact ih hl'
      | some w =>
        have hkey : (schema.key m == schema.key n) = false :=
          beq_false_of_ne fun e => hn (h.key_injective m n e)
        show List.lookup (schema.key m) ((schema.key n, w) :: _) = some v
        rw [List.lookup_cons, hkey]
        exact ih hl'

/-- What is written for a member stands under its key. -/
theorem member?_written (h : schema.Fields put blank Has) (value? : μ → Option Json) (m : μ) :
    member? (schema.declared.filterMap fun m => (value? m).map (schema.key m, ·)) (schema.key m) =
      value? m := by
  rw [member?, ← List.filterMap_reverse]
  cases hm : value? m with
  | none => exact lookup_filterMap_of_none h hm _
  | some v => exact lookup_filterMap_of_some h hm (List.mem_reverse.2 (h.mem_declared m))

/-- Under the key of a member stands what is written for it, and nothing else. -/
theorem mem_written_iff (h : schema.Fields put blank Has) {value? : μ → Option Json} {m : μ}
    {v : Json} :
    (schema.key m, v) ∈
        schema.declared.filterMap (fun m => (value? m).map (schema.key m, ·)) ↔
      value? m = some v := by
  rw [List.mem_filterMap]
  constructor
  · rintro ⟨n, -, hn⟩
    obtain ⟨w, hw, e⟩ := Option.map_eq_some_iff.1 hn
    obtain ⟨hkey, rfl⟩ := Prod.mk.inj e
    rwa [← h.key_injective n m hkey]
  · intro hm
    exact ⟨m, h.mem_declared m, by rw [hm]; rfl⟩

/-- What is written stands in declared order. -/
theorem keys_written_sublist (schema : Schema μ) (value? : μ → Option Json) :
    ((schema.declared.filterMap fun m => (value? m).map (schema.key m, ·)).map Prod.fst).Sublist
      (schema.declared.map schema.key) := by
  induction schema.declared with
  | nil => exact .slnil
  | cons m l ih =>
    rw [List.filterMap_cons]
    cases value? m with
    | none => exact ih.cons _
    | some v => exact ih.cons_cons _

/-! ## Objects that are read member by member -/

/-- A step of the reader at a member that may be absent. -/
def putGiven (put : ρ → μ → Json → Read ρ) (given : μ → Option Json) (t : ρ) (m : μ) : Read ρ :=
  match given m with
  | some v => put t m v
  | none => pure t

theorem Fields.putGiven_has (h : schema.Fields put blank Has) {given : μ → Option Json} {t t' : ρ}
    {m : μ} (ht : putGiven put given t m = .ok t') :
    (Has t m none → Has t' m (given m)) ∧ ∀ n, n ≠ m → ∀ x, Has t n x → Has t' n x := by
  unfold putGiven at ht
  cases hg : given m with
  | none =>
    rw [hg] at ht
    obtain rfl := Except.ok.inj ht
    exact ⟨id, fun _ _ _ hn => hn⟩
  | some v =>
    rw [hg] at ht
    exact ⟨fun _ => h.put_has ht, fun n hn x hx => h.put_frame ht hn hx⟩

/-- A run over distinct members settles each of them and keeps the others. -/
theorem Fields.foldlM_has (h : schema.Fields put blank Has) {given : μ → Option Json} {l : List μ}
    (hl : l.Nodup) {t t' : ρ} (ht : l.foldlM (putGiven put given) t = .ok t') :
    (∀ m ∈ l, Has t m none → Has t' m (given m)) ∧ ∀ m, m ∉ l → ∀ x, Has t m x → Has t' m x := by
  induction l generalizing t with
  | nil =>
    obtain rfl := Except.ok.inj ht
    exact ⟨by simp, fun _ _ _ hm => hm⟩
  | cons m l ih =>
    rw [List.foldlM_cons] at ht
    obtain ⟨u, hu, hut⟩ : ∃ u, putGiven put given t m = .ok u ∧
        l.foldlM (putGiven put given) u = .ok t' := by
      cases hp : putGiven put given t m with
      | error e =>
        rw [hp] at ht
        cases ht
      | ok u =>
        rw [hp] at ht
        exact ⟨u, rfl, ht⟩
    obtain ⟨hml, hl⟩ := List.nodup_cons.1 hl
    obtain ⟨hin, hout⟩ := ih hl hut
    obtain ⟨hhere, hframe⟩ := h.putGiven_has hu
    constructor
    · intro n hn hnone
      obtain rfl | hn := List.mem_cons.1 hn
      · exact hout n hml _ (hhere hnone)
      · exact hin n hn (hframe n (fun e => hml (e ▸ hn)) none hnone)
    · intro n hn x hx
      rw [List.mem_cons, not_or] at hn
      exact hout n hn.2 x (hframe n hn.1 x hx)

/-- A run succeeds if what is given for each member is had by some record. -/
theorem Fields.foldlM_ok (h : schema.Fields put blank Has) {given : μ → Option Json} {l : List μ}
    (hl : ∀ m ∈ l, ∀ v, given m = some v → ∃ r, Has r m (some v)) (t : ρ) :
    ∃ t', l.foldlM (putGiven put given) t = .ok t' := by
  induction l generalizing t with
  | nil => exact ⟨t, rfl⟩
  | cons m l ih =>
    obtain ⟨u, hu⟩ : ∃ u, putGiven put given t m = .ok u := by
      unfold putGiven
      cases hg : given m with
      | none => exact ⟨t, rfl⟩
      | some v =>
        obtain ⟨r, hr⟩ := hl m List.mem_cons_self v hg
        exact h.put_of_has t hr
    obtain ⟨t', ht'⟩ := ih (fun n hn => hl n (List.mem_cons_of_mem m hn)) u
    refine ⟨t', ?_⟩
    rw [List.foldlM_cons, hu]
    exact ht'

variable [BEq μ]

/-- Reads what is given for the members of a list. -/
def readGiven (schema : Schema μ) (put : ρ → μ → Json → Read ρ) (blank : ρ) (v : Json)
    (l : List μ) (given : μ → Option Json) : Read ρ := do
  let t ← l.foldlM (putGiven put given) blank
  schema.noneMissing v (l.filterMap fun m => (given m).map (m, ·))
  return t

omit [BEq μ] in
theorem foldlM_given (put : ρ → μ → Json → Read ρ) (blank : ρ) (l : List μ)
    (given : μ → Option Json) :
    (l.filterMap fun m => (given m).map (m, ·)).foldlM (fun t (p : μ × Json) => put t p.1 p.2)
      blank = l.foldlM (putGiven put given) blank := by
  rw [List.foldlM_filterMap]
  congr 1
  funext t m
  unfold putGiven
  cases given m <;> rfl

/-- What a value gives for a member: an object by key, an array by position. -/
def slot? (schema : Schema μ) : Json → μ → Option Json
  | .object members, m => member? members (schema.key m)
  | .array items, m => items[schema.declared.idxOf m]?
  | _, _ => none

/-- The values that can be a structure: objects, and arrays with no more items than there are
members. -/
inductive IsForm (schema : Schema μ) : Json → Prop where
  | object (members : List (String × Json)) : IsForm schema (.object members)
  | array {items : List Json} : items.length ≤ schema.declared.length → IsForm schema (.array items)

variable [LawfulBEq μ]

theorem noneMissing_iff (schema : Schema μ) (v : Json) {l : List μ} (hl : ∀ m, m ∈ l)
    (given : μ → Option Json) :
    schema.noneMissing v (l.filterMap fun m => (given m).map (m, ·)) = .ok () ↔
      ∀ m ∈ schema.mandatory, (given m).isSome := by
  have hany : ∀ m, (l.filterMap fun m => (given m).map (m, ·)).any (·.1 == m) =
      (given m).isSome := by
    intro m
    rw [Bool.eq_iff_iff, List.any_eq_true]
    constructor
    · rintro ⟨⟨n, v⟩, hp, hn⟩
      obtain ⟨k, -, hk⟩ := List.mem_filterMap.1 hp
      obtain ⟨w, hw, hkw⟩ := Option.map_eq_some_iff.1 hk
      obtain ⟨rfl, rfl⟩ := Prod.mk.inj hkw
      rw [← eq_of_beq hn, hw]
      rfl
    · intro hs
      obtain ⟨v, hv⟩ := Option.isSome_iff_exists.1 hs
      refine ⟨(m, v), List.mem_filterMap.2 ⟨m, hl m, ?_⟩, beq_self_eq_true m⟩
      rw [hv]
      rfl
  unfold noneMissing
  simp only [hany]
  split
  · next m hm =>
    have hn := List.find?_some hm
    rw [Bool.not_eq_true'] at hn
    constructor
    · intro he
      cases he
    · intro hall
      rw [hall m (List.mem_of_find?_eq_some hm)] at hn
      cases hn
  · next hnone =>
    rw [List.find?_eq_none] at hnone
    refine iff_of_true rfl fun m hm => ?_
    have hs := hnone m hm
    rwa [Bool.not_eq_true', Bool.not_eq_false] at hs

/-- What is given reads as the record that has it, as long as no mandatory member is absent. -/
theorem readGiven_iff (h : schema.Fields put blank Has) (v : Json) {l : List μ} (hnodup : l.Nodup)
    (hl : ∀ m, m ∈ l) {given : μ → Option Json} {r : ρ} :
    schema.readGiven put blank v l given = .ok r ↔
      (∀ m, Has r m (given m)) ∧ ∀ m ∈ schema.mandatory, (given m).isSome := by
  unfold readGiven
  constructor
  · intro hr
    cases hf : l.foldlM (putGiven put given) blank with
    | error e =>
      rw [hf] at hr
      cases hr
    | ok t =>
      rw [hf] at hr
      cases hm : schema.noneMissing v (l.filterMap fun m => (given m).map (m, ·)) with
      | error e =>
        simp only [bind, Except.bind, hm] at hr
        cases hr
      | ok u =>
        simp only [bind, Except.bind, hm] at hr
        obtain rfl := Except.ok.inj hr
        obtain ⟨hin, -⟩ := h.foldlM_has hnodup hf
        exact ⟨fun m => hin m (hl m) (h.blank_has m), (noneMissing_iff schema v hl given).1 hm⟩
  · rintro ⟨hhas, hmandatory⟩
    obtain ⟨t, ht⟩ := h.foldlM_ok (l := l) (fun m _ v hv => ⟨r, hv ▸ hhas m⟩) blank
    obtain ⟨hin, -⟩ := h.foldlM_has hnodup ht
    have htr : t = r := h.has_unique fun m => ⟨_, hin m (hl m) (h.blank_has m), hhas m⟩
    rw [ht, ← htr]
    simp only [bind, Except.bind, (noneMissing_iff schema v hl given).2 hmandatory]
    rfl

omit [LawfulBEq μ] in
/-- Objects that have the same under every key are read alike, in whatever order it stands. -/
theorem read_object_congr (schema : Schema μ) (put : ρ → μ → Json → Read ρ) (blank : ρ)
    {members members' : List (String × Json)}
    (h : ∀ key, member? members' key = member? members key) :
    schema.read put blank (.object members') = schema.read put blank (.object members) := by
  have hslots : schema.slots (.object members') = schema.slots (.object members) := by
    simp only [slots, h]
  unfold read
  rw [hslots]
  rfl

omit [LawfulBEq μ] in
theorem read_object_eq (schema : Schema μ) (put : ρ → μ → Json → Read ρ) (blank : ρ)
    (members : List (String × Json)) :
    schema.read put blank (.object members) =
      schema.readGiven put blank (.object members) schema.byKey
        fun m => member? members (schema.key m) := by
  rw [readGiven, ← foldlM_given]
  rfl

/-- An object reads as the record that has its members, as long as no mandatory member is absent. -/
theorem read_object_iff (h : schema.Fields put blank Has) {members : List (String × Json)} {r : ρ} :
    schema.read put blank (.object members) = .ok r ↔
      (∀ m, Has r m (member? members (schema.key m))) ∧
        ∀ m ∈ schema.mandatory, (member? members (schema.key m)).isSome := by
  rw [read_object_eq]
  exact readGiven_iff h _ h.nodup_byKey h.mem_byKey

/-- Items in a row are those that stand at the position of each member. -/
theorem zip_eq_filterMap {l : List μ} (hl : l.Nodup) (items : List Json) :
    l.zip items = l.filterMap fun m => (items[l.idxOf m]?).map (m, ·) := by
  induction l generalizing items with
  | nil => rfl
  | cons m l ih =>
    obtain ⟨hm, hl⟩ := List.nodup_cons.1 hl
    cases items with
    | nil => simp
    | cons v items =>
      have hrest : ∀ n ∈ l, ((v :: items)[(m :: l).idxOf n]?).map (n, ·) =
          (items[l.idxOf n]?).map (n, ·) := by
        intro n hn
        have hne : (m == n) = false := beq_false_of_ne fun e => hm (e ▸ hn)
        rw [List.idxOf_cons, hne]
        rfl
      rw [List.zip_cons_cons, ih hl, List.filterMap_cons, List.idxOf_cons_self]
      exact congrArg _ (List.filterMap_congr hrest).symm

/-- An array that is not too long reads as the record that has its items by position. -/
theorem read_array_iff (h : schema.Fields put blank Has) (hdeclared : schema.declared.Nodup)
    {items : List Json} {r : ρ} :
    schema.read put blank (.array items) = .ok r ↔
      items.length ≤ schema.declared.length ∧
        (∀ m, Has r m (schema.slot? (.array items) m)) ∧
          ∀ m ∈ schema.mandatory, (schema.slot? (.array items) m).isSome := by
  have hslots : schema.slots (.array items) = .ok (schema.declared.filterMap fun m =>
      (schema.slot? (.array items) m).map (m, ·)) :=
    congrArg Except.ok (zip_eq_filterMap hdeclared items)
  have hread : schema.read put blank (.array items) = (do
      let r ← schema.readGiven put blank (.array items) schema.declared
        (schema.slot? (.array items))
      schema.noSurplus (.array items)
      return r) := by
    unfold read readGiven
    rw [hslots, ← foldlM_given]
    simp only [bind_assoc, pure_bind]
    rfl
  have hgiven : schema.readGiven put blank (.array items) schema.declared
      (schema.slot? (.array items)) = .ok r ↔ (∀ m, Has r m (schema.slot? (.array items) m)) ∧
        ∀ m ∈ schema.mandatory, (schema.slot? (.array items) m).isSome :=
    readGiven_iff h _ hdeclared h.mem_declared
  rw [hread, ← hgiven]
  cases schema.readGiven put blank (.array items) schema.declared
    (schema.slot? (.array items)) with
  | error e => exact iff_of_false (by rintro ⟨⟩) (by rintro ⟨-, ⟨⟩⟩)
  | ok t =>
    by_cases hlength : schema.declared.length < items.length
    · have hsurplus : schema.noSurplus (.array items) = .error (.tooLong items.length) :=
        if_pos hlength
      simp only [bind, Except.bind, hsurplus]
      exact iff_of_false (by rintro ⟨⟩) fun hr => absurd hr.1 (Nat.not_le.2 hlength)
    · have hsurplus : schema.noSurplus (.array items) = .ok () := if_neg hlength
      simp only [bind, Except.bind, hsurplus]
      exact (and_iff_right (Nat.not_lt.1 hlength)).symm

/-- A value reads as the record that has what it gives for each member. -/
theorem read_iff (h : schema.Fields put blank Has) (hdeclared : schema.declared.Nodup)
    {v : Json} {r : ρ} :
    schema.read put blank v = .ok r ↔ schema.IsForm v ∧ (∀ m, Has r m (schema.slot? v m)) ∧
      ∀ m ∈ schema.mandatory, (schema.slot? v m).isSome := by
  cases v with
  | object members =>
    rw [read_object_iff h]
    exact ⟨fun hr => ⟨.object members, hr⟩, fun hr => hr.2⟩
  | array items =>
    rw [read_array_iff h hdeclared]
    refine and_congr_left fun _ => ⟨.array, ?_⟩
    intro hform
    cases hform with
    | array hlength => exact hlength
  | _ => exact iff_of_false (by rintro ⟨⟩) (by rintro ⟨⟨⟩, -⟩)

/-- A record is read back from the object of its members. -/
theorem read_written (h : schema.Fields put blank Has) {value? : μ → Option Json} {r : ρ}
    (hr : ∀ m, Has r m (value? m)) (hm : ∀ m ∈ schema.mandatory, (value? m).isSome) :
    schema.read put blank
        (.object (schema.declared.filterMap fun m => (value? m).map (schema.key m, ·))) =
      .ok r := by
  rw [read_object_iff h]
  simp only [member?_written h]
  exact ⟨hr, hm⟩

end Schema

end WirelessArchive.Json
