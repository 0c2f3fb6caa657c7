import Mathlib.Data.List.Forall2
import Mathlib.Tactic.SplitIfs
import WirelessArchive.Proofs.Json.Structure

/-!
# What values spell

The types of members as relations between JSON values and what they spell, without a word about how
they are read: a text, a truth value, an integer of some width, a name out of a few, an address, a
list of these.  `Reads` ties each relation to its reader: the reader accepts exactly the values that
spell something, and gives what they spell.

A member of an object may be absent, and then stands for its default (`OrAbsent`); some members may
also be `null` (`OrNull`).  The two are not the same: `null` is no list and no truth value.
-/

namespace WirelessArchive.Json

variable {α : Type}

/-! ## Types of values -/

/-- A string is a text. -/
def IsText (v : Json) (s : String) : Prop := v = .string s

/-- `true` and `false` are truth values. -/
def IsTruth (v : Json) (b : Bool) : Prop := v = .bool b

/-- An integer; a float is none, not even one without a fraction. -/
def IsInteger (v : Json) (n : Int) : Prop := ∃ fits, v = .number (.integer n fits)

/-- An integer from 0 to 255. -/
def IsOctet (v : Json) (n : UInt8) : Prop := IsInteger v n.toNat

/-- An integer from 0 to 65535. -/
def IsWord16 (v : Json) (n : UInt16) : Prop := IsInteger v n.toNat

/-- An integer from 0 to 4294967295. -/
def IsWord32 (v : Json) (n : UInt32) : Prop := IsInteger v n.toNat

/-- An integer from 0 to 18446744073709551615. -/
def IsWord64 (v : Json) (n : UInt64) : Prop := IsInteger v n.toNat

/-- A string that is the name of something. -/
def IsName (name : α → String) (v : Json) (a : α) : Prop := v = .string (name a)

/-- The text of an IP address. -/
def IsAddress (v : Json) (a : Address) : Prop :=
  ∃ s, v = .string s ∧ Address.parse? s.toList = some a

/-- The text of a link address. -/
def IsLink (v : Json) (l : LinkAddress) : Prop := ∃ s, v = .string s ∧ LinkAddress.parse s = .ok l

/-- A list whose items are all of a type. -/
inductive IsList (Is : Json → α → Prop) : Json → List α → Prop where
  | items {items : List Json} {as : List α} : List.Forall₂ Is items as → IsList Is (.array items) as

/-- `null`, which is nothing, or a value of a type. -/
inductive OrNull (Is : Json → α → Prop) : Json → Option α → Prop where
  | null : OrNull Is .null none
  | given {v : Json} {a : α} : Is v a → OrNull Is v (some a)

/-! ## Members -/

/-- A member of a type that stands for its default when it is absent. -/
inductive OrAbsent (Is : Json → α → Prop) (default : α) : Option Json → α → Prop where
  | absent : OrAbsent Is default none default
  | given {v : Json} {a : α} : Is v a → OrAbsent Is default (some v) a

/-- A member that is absent or of a type. -/
def May (Is : Json → α → Prop) (x : Option Json) : Prop := ∀ v, x = some v → ∃ a, Is v a

/-- A member that is present and of a type. -/
def Must (Is : Json → α → Prop) (x : Option Json) : Prop := ∃ v, x = some v ∧ ∃ a, Is v a

/-- A member is not an object. -/
def NoObject (x : Option Json) : Prop := ∀ members, x ≠ some (.object members)

theorem exists_orAbsent_iff {Is : Json → α → Prop} {default : α} {x : Option Json} :
    (∃ a, OrAbsent Is default x a) ↔ May Is x := by
  constructor
  · rintro ⟨a, h⟩ v rfl
    cases h with
    | given h => exact ⟨a, h⟩
  · intro h
    rcases x with _ | v
    · exact ⟨default, .absent⟩
    · obtain ⟨a, ha⟩ := h v rfl
      exact ⟨a, .given ha⟩

theorem May.of_orAbsent {Is : Json → α → Prop} {default a : α} {x : Option Json}
    (h : OrAbsent Is default x a) : May Is x :=
  exists_orAbsent_iff.1 ⟨a, h⟩

theorem OrAbsent.given_iff {Is : Json → α → Prop} {default a : α} {v : Json} :
    OrAbsent Is default (some v) a ↔ Is v a := by
  constructor
  · rintro (_ | h)
    exact h
  · exact .given

theorem OrAbsent.of_isSome {Is : Json → α → Prop} {default a : α} {x : Option Json}
    (h : OrAbsent Is default x a) (hx : x.isSome) : ∃ v, x = some v ∧ Is v a := by
  rcases h with _ | h
  · cases hx
  · exact ⟨_, rfl, h⟩

/-- A member that may be `null` gives something exactly if a value of its type is there. -/
theorem orAbsent_some_iff {Is : Json → α → Prop} {x : Option Json} {a : α} :
    OrAbsent (OrNull Is) none x (some a) ↔ ∃ v, x = some v ∧ Is v a := by
  constructor
  · rintro (_ | (_ | h))
    exact ⟨_, rfl, h⟩
  · rintro ⟨v, rfl, h⟩
    exact .given (.given h)

theorem orAbsent_text_iff {x : Option Json} {s : String} :
    OrAbsent (OrNull IsText) none x (some s) ↔ x = some (.string s) := by
  simp [orAbsent_some_iff, IsText]

/-- A name that may be absent stands for its default if it is absent or the default's. -/
theorem OrAbsent.eq_default_iff {name : α → String} (hname : ∀ a b, name a = name b → a = b)
    {default a : α} {x : Option Json} (h : OrAbsent (IsName name) default x a) :
    a = default ↔ ∀ v, x = some v → v = .string (name default) := by
  cases h with
  | absent => simp
  | given h =>
    obtain rfl := h
    constructor
    · rintro rfl v hv
      exact (Option.some.inj hv).symm
    · exact fun h => hname _ _ (string.inj (h _ rfl))

/-- A name that may be absent stands for anything else only if it is its name. -/
theorem OrAbsent.eq_iff {name : α → String} (hname : ∀ a b, name a = name b → a = b)
    {default a b : α} {x : Option Json} (h : OrAbsent (IsName name) default x a)
    (hb : b ≠ default) : a = b ↔ x = some (.string (name b)) := by
  cases h with
  | absent => simp [hb.symm]
  | given h =>
    obtain rfl := h
    simp only [Option.some.injEq, string.injEq]
    exact ⟨congrArg name, hname a b⟩

/-! ## Readers -/

/-- A reader accepts exactly the values of a type, and gives what they spell. -/
def Reads (read : Json → Read α) (Is : Json → α → Prop) : Prop := ∀ v a, read v = .ok a ↔ Is v a

theorem denotes_iff {read : Json → Read α} {Is : Json → α → Prop} {default : α} {x : Option Json}
    (h : ∀ v, x = some v → ∀ a, read v = .ok a ↔ Is v a) {a : α} :
    Denotes read default x a ↔ OrAbsent Is default x a := by
  rcases x with _ | v
  · constructor
    · rintro rfl
      exact .absent
    · rintro ⟨⟩
      rfl
  · constructor
    · exact fun hv => .given ((h v rfl a).1 hv)
    · rintro (_ | hv)
      exact (h v rfl a).2 hv

theorem Reads.denotes_iff {read : Json → Read α} {Is : Json → α → Prop} (h : Reads read Is)
    {default : α} {x : Option Json} {a : α} :
    Denotes read default x a ↔ OrAbsent Is default x a :=
  Json.denotes_iff fun v _ => h v

theorem Reads.orAbsent_unique {read : Json → Read α} {Is : Json → α → Prop} (h : Reads read Is)
    {default : α} {x : Option Json} {a b : α} (ha : OrAbsent Is default x a)
    (hb : OrAbsent Is default x b) : a = b :=
  (h.denotes_iff.2 ha).unique (h.denotes_iff.2 hb)

theorem reads_text : Reads asString IsText := by
  intro v s
  cases v <;> simp [asString, IsText]

theorem reads_truth : Reads asBool IsTruth := by
  intro v b
  cases v <;> simp [asBool, IsTruth]

theorem asNatural_eq_ok_iff {limit : Nat} {type : String} {v : Json} {n : Nat} :
    asNatural limit type v = .ok n ↔ IsInteger v n ∧ n < limit := by
  unfold asNatural
  split
  · next m fits =>
    split_ifs with hrange
    · simp only [Except.ok.injEq, IsInteger, number.injEq, Number.integer.injEq]
      constructor
      · rintro rfl
        exact ⟨⟨by omega, by omega⟩, by omega⟩
      · rintro ⟨⟨-, rfl⟩, -⟩
        rfl
    · simp only [IsInteger, number.injEq, Number.integer.injEq, false_iff]
      rintro ⟨⟨-, rfl⟩, hn⟩
      omega
  · next hv =>
    simp only [reduceCtorEq, IsInteger, false_iff]
    rintro ⟨⟨fits, rfl⟩, -⟩
    exact hv _ _ rfl

/-- A number that is read into a word is the number of the word. -/
theorem map_ofNat_eq_ok_iff {ω : Type} {limit : Nat} {type : String} {v : Json} {w : ω}
    {ofNat : Nat → ω} {toNat : ω → Nat} (hlt : ∀ w, toNat w < limit)
    (hof : ∀ w, ofNat (toNat w) = w) (hto : ∀ n, n < limit → toNat (ofNat n) = n) :
    (asNatural limit type v).map ofNat = .ok w ↔ IsInteger v (toNat w) := by
  rw [map_eq_ok_iff]
  simp only [asNatural_eq_ok_iff]
  constructor
  · rintro ⟨n, ⟨hn, hlimit⟩, rfl⟩
    rwa [hto n hlimit]
  · intro h
    exact ⟨toNat w, ⟨h, hlt w⟩, hof w⟩

theorem reads_octet : Reads asOctet IsOctet := fun _ _ =>
  map_ofNat_eq_ok_iff UInt8.toNat_lt (fun _ => UInt8.ofNat_toNat)
    fun _ => UInt8.toNat_ofNat_of_lt

theorem reads_word16 : Reads asWord16 IsWord16 := fun _ _ =>
  map_ofNat_eq_ok_iff UInt16.toNat_lt (fun _ => UInt16.ofNat_toNat)
    fun _ => UInt16.toNat_ofNat_of_lt

theorem reads_word32 : Reads asWord32 IsWord32 := fun _ _ =>
  map_ofNat_eq_ok_iff UInt32.toNat_lt (fun _ => UInt32.ofNat_toNat)
    fun _ => UInt32.toNat_ofNat_of_lt

theorem reads_size : Reads asSize IsWord64 := fun _ _ =>
  map_ofNat_eq_ok_iff UInt64.toNat_lt (fun _ => UInt64.ofNat_toNat)
    fun _ => UInt64.toNat_ofNat_of_lt

theorem reads_address : Reads asAddress IsAddress := by
  intro v a
  unfold asAddress IsAddress
  split
  · next s =>
    simp only [string.injEq, exists_eq_left']
    cases Address.parse? s.toList <;> simp
  · next hv =>
    simp only [reduceCtorEq, false_iff]
    rintro ⟨s, rfl, -⟩
    exact hv s rfl

theorem reads_link : Reads asLink IsLink := by
  intro v l
  unfold asLink IsLink
  split
  · next s =>
    simp only [string.injEq, exists_eq_left']
    cases LinkAddress.parse s <;> simp
  · next hv =>
    simp only [reduceCtorEq, false_iff]
    rintro ⟨s, rfl, -⟩
    exact hv s rfl

theorem Reads.orNull {read : Json → Read α} {Is : Json → α → Prop} (h : Reads read Is)
    (hnull : ∀ a, ¬Is .null a) : Reads (asOption read) (OrNull Is) := by
  intro v a
  constructor
  · intro hv
    unfold asOption at hv
    split at hv
    · obtain rfl := Except.ok.inj hv
      exact .null
    · obtain ⟨b, hb, rfl⟩ := map_eq_ok_iff.1 hv
      exact .given ((h _ b).1 hb)
  · rintro (_ | ha)
    · rfl
    · unfold asOption
      split
      · exact absurd ha (hnull _)
      · exact map_eq_ok_iff.2 ⟨_, (h _ _).2 ha, rfl⟩

theorem mapM_eq_ok_iff {read : Json → Read α} {Is : Json → α → Prop} (h : Reads read Is)
    {items : List Json} {as : List α} :
    items.mapM read = .ok as ↔ List.Forall₂ Is items as := by
  induction items generalizing as with
  | nil => simp [pure, Except.pure, eq_comm]
  | cons v items ih =>
    rw [List.mapM_cons, List.forall₂_cons_left_iff]
    simp only [← h v, ← ih]
    rcases read v with e | a
    · simp [bind, Except.bind]
    · rcases items.mapM read with e | rest <;>
        simp [bind, Except.bind, pure, Except.pure, eq_comm]

theorem Reads.list {read : Json → Read α} {Is : Json → α → Prop} (h : Reads read Is) :
    Reads (asList read) (IsList Is) := by
  intro v as
  unfold asList
  split
  · rw [mapM_eq_ok_iff h]
    constructor
    · exact .items
    · rintro ⟨h⟩
      exact h
  · next hv =>
    simp only [reduceCtorEq, false_iff]
    rintro ⟨h⟩
    exact hv _ rfl

theorem reads_text? : Reads (asOption asString) (OrNull IsText) :=
  reads_text.orNull fun _ h => by cases h

theorem reads_octet? : Reads (asOption asOctet) (OrNull IsOctet) :=
  reads_octet.orNull fun _ ⟨_, h⟩ => by cases h

theorem reads_word16? : Reads (asOption asWord16) (OrNull IsWord16) :=
  reads_word16.orNull fun _ ⟨_, h⟩ => by cases h

theorem reads_address? : Reads (asOption asAddress) (OrNull IsAddress) :=
  reads_address.orNull fun _ ⟨_, h, _⟩ => by cases h

theorem reads_link? : Reads (asOption asLink) (OrNull IsLink) :=
  reads_link.orNull fun _ ⟨_, h, _⟩ => by cases h

theorem reads_keys? : Reads (asOption (asList (asOption asString)))
    (OrNull (IsList (OrNull IsText))) :=
  reads_text?.list.orNull fun _ h => by cases h

/-! ## Names -/

/-- In a table of names something is found exactly under its own name. -/
theorem lookup_table_eq_some_iff {name : α → String} (hname : ∀ a b, name a = name b → a = b)
    {l : List α} (hl : ∀ a, a ∈ l) {s : String} {a : α} :
    (l.map fun b => (name b, b)).lookup s = some a ↔ s = name a := by
  constructor
  · intro h
    obtain ⟨before, after, hsplit, -⟩ := List.lookup_eq_some_iff.1 h
    have hmem : (s, a) ∈ l.map fun b => (name b, b) := by simp [hsplit]
    obtain ⟨b, -, hb⟩ := List.mem_map.1 hmem
    obtain ⟨rfl, rfl⟩ := Prod.mk.inj hb
    rfl
  · rintro rfl
    have ha := hl a
    clear hl
    induction l with
    | nil => cases ha
    | cons b l ih =>
      rw [List.map_cons, List.lookup_cons]
      by_cases hb : a = b
      · rw [hb, beq_self_eq_true]
      · rw [beq_false_of_ne fun e => hb (hname a b e)]
        exact ih ((List.mem_cons.1 ha).resolve_left hb)

/-- A value that is not an object names a variant exactly if it is the name of it. -/
theorem asVariant_eq_ok_iff {name : α → String} (hname : ∀ a b, name a = name b → a = b)
    {l : List α} (hl : ∀ a, a ∈ l) {v : Json} (hv : ∀ members, v ≠ .object members) {a : α} :
    asVariant (l.map fun b => (name b, b)) v = .ok a ↔ IsName name v a := by
  unfold IsName
  rcases v with _ | _ | _ | s | _ | members
  case string =>
    rw [string.injEq, ← lookup_table_eq_some_iff hname hl]
    show variantNamed _ s = .ok a ↔ _
    unfold variantNamed
    rcases List.lookup s _ with _ | b <;> simp
  case object => exact absurd rfl (hv members)
  all_goals simp [asVariant]

theorem denotes_name_iff {name : α → String} (hname : ∀ a b, name a = name b → a = b)
    {l : List α} (hl : ∀ a, a ∈ l) {x : Option Json} (hx : NoObject x) {default a : α} :
    Denotes (asVariant (l.map fun b => (name b, b))) default x a ↔
      OrAbsent (IsName name) default x a :=
  denotes_iff fun _ hv _ =>
    asVariant_eq_ok_iff hname hl fun members e => hx members (hv.trans (congrArg some e))

end WirelessArchive.Json
