import WirelessArchive.Proofs.Json.Agreement

/-!
# Objects in another arrangement

The members of an object may change places as long as those with one key keep theirs, and a member
that a later one overrides may be left out: neither shows under any key (`member?_swap`,
`member?_drop`).  Two values are `Arranged` for a structure if such steps, and steps within the
members that it knows, lead from one to the other.  They are then alike, so that what is known of
the reader of alike values holds of them (`Arranged.alike`).
-/

namespace WirelessArchive.Json.Schema

/-! ## What stands under a key -/

theorem member?_singleton (m : String × Json) (key : String) :
    member? [m] key = if key = m.1 then some m.2 else none := by
  obtain ⟨k, v⟩ := m
  show List.lookup key [(k, v)] = _
  rw [List.lookup_cons]
  by_cases hk : key = k
  · simp [hk]
  · simp [hk, beq_false_of_ne hk]

theorem member?_cons (m : String × Json) (back : List (String × Json)) (key : String) :
    member? (m :: back) key = (member? back key).or (member? [m] key) :=
  member?_append [m] back key

/-- Under a key that occurs stands something. -/
theorem isSome_member? {members : List (String × Json)} {key : String}
    (h : key ∈ members.map Prod.fst) : (member? members key).isSome = true := by
  obtain ⟨m, hm, rfl⟩ := List.mem_map.1 h
  rw [member?, List.lookup_isSome_iff]
  exact ⟨m, List.mem_reverse.2 hm, beq_self_eq_true m.1⟩

theorem member?_eq_none_iff {members : List (String × Json)} {key : String} :
    member? members key = none ↔ key ∉ members.map Prod.fst := by
  rw [member?, List.lookup_eq_none_iff]
  simp only [List.mem_reverse, bne_iff_ne, List.mem_map, not_exists, not_and, ne_eq]
  exact forall₂_congr fun p _ => ⟨fun h e => h e.symm, fun h e => h e.symm⟩

/-- A key that occurs only once has the value that stands under it. -/
theorem member?_eq_some_iff {members : List (String × Json)} {key : String}
    (h : (members.map Prod.fst).count key ≤ 1) {v : Json} :
    member? members key = some v ↔ (key, v) ∈ members := by
  constructor
  · intro hv
    obtain ⟨before, after, hsplit, -⟩ := List.lookup_eq_some_iff.1 hv
    rw [← List.mem_reverse, hsplit]
    exact List.mem_append_right _ List.mem_cons_self
  · intro hv
    obtain ⟨front, back, rfl⟩ := List.append_of_mem hv
    have hback : key ∉ back.map Prod.fst := by
      intro hmem
      have hcount := List.count_pos_iff.2 hmem
      rw [List.map_append, List.map_cons, List.count_append, List.count_cons_self] at h
      omega
    rw [member?_append, member?_cons, member?_eq_none_iff.2 hback, member?_singleton,
      if_pos rfl]
    rfl

/-- Members with different keys may change places. -/
theorem member?_swap (front back : List (String × Json)) {a b : String × Json} (h : a.1 ≠ b.1)
    (key : String) :
    member? (front ++ a :: b :: back) key = member? (front ++ b :: a :: back) key := by
  have hpair : (member? [b] key).or (member? [a] key) = (member? [a] key).or (member? [b] key) := by
    rw [member?_singleton, member?_singleton]
    split
    · next hb => rw [if_neg fun ha => h (ha.symm.trans hb)]; rfl
    · split <;> rfl
  rw [member?_append, member?_append, member?_cons a (b :: back), member?_cons b back,
    member?_cons b (a :: back), member?_cons a back, @Option.or_assoc _ (member? back key), hpair,
    ← @Option.or_assoc _ (member? back key)]

/-- A member that a later one overrides shows nowhere. -/
theorem member?_drop (front : List (String × Json)) {back : List (String × Json)}
    {overridden : String} (h : overridden ∈ back.map Prod.fst) (x : Json) (key : String) :
    member? (front ++ (overridden, x) :: back) key = member? (front ++ back) key := by
  rw [member?_append, member?_append, member?_cons, member?_singleton]
  split
  · next hkey =>
    subst hkey
    rw [Option.or_of_isSome (isSome_member? h)]
  · rw [Option.or_none]

/-! ## Structures -/

variable {μ : Type} {schema : Schema μ}

/-- The value gives a structure in another arrangement.  Members of the object change places or are
left out, and what is given for a member, by its key or by its place in an array, is changed as `E`
allows. -/
inductive Arranged (schema : Schema μ) (E : μ → Json → Json → Prop) : Json → Json → Prop where
  | refl (v : Json) : Arranged schema E v v
  | swap (front back : List (String × Json)) {a b : String × Json} : a.1 ≠ b.1 →
    Arranged schema E (.object (front ++ a :: b :: back)) (.object (front ++ b :: a :: back))
  | drop (front : List (String × Json)) {back : List (String × Json)} {key : String} (x : Json) :
    key ∈ back.map Prod.fst →
    Arranged schema E (.object (front ++ (key, x) :: back)) (.object (front ++ back))
  | member (front back : List (String × Json)) {m : μ} {x x' : Json} : E m x x' →
    Arranged schema E (.object (front ++ (schema.key m, x) :: back))
      (.object (front ++ (schema.key m, x') :: back))
  | item (front back : List Json) {m : μ} {x x' : Json} :
    schema.declared[front.length]? = some m → E m x x' →
    Arranged schema E (.array (front ++ x :: back)) (.array (front ++ x' :: back))
  | trans {v w u : Json} : Arranged schema E v w → Arranged schema E w u → Arranged schema E v u

variable {E F : μ → Json → Json → Prop}

theorem Alike.symm (hE : ∀ m x y, E m x y → E m y x) {v w : Json} (h : schema.Alike E v w) :
    schema.Alike E w v := by
  have hrel : ∀ {m : μ} {x y : Option Json}, Option.Rel (E m) x y → Option.Rel (E m) y x := by
    intro m x y hxy
    cases hxy with
    | none => exact .none
    | some hxy => exact .some (hE m _ _ hxy)
  cases h with
  | same => exact .same v
  | object h => exact .object fun m => hrel (h m)
  | array hlength h => exact .array hlength.symm fun i m hi => hrel (h i m hi)

/-- The value of a member may be replaced in an array, too. -/
theorem alike_item (hF : ∀ m x, F m x x) (front back : List Json) {m : μ} {x x' : Json}
    (hm : schema.declared[front.length]? = some m) (h : F m x x') :
    schema.Alike F (.array (front ++ x :: back)) (.array (front ++ x' :: back)) := by
  refine .array (by simp) fun i n hi => ?_
  by_cases hfront : i < front.length
  · rw [List.getElem?_append_left hfront, List.getElem?_append_left hfront]
    exact rel_refl hF n _
  · obtain ⟨j, rfl⟩ : ∃ j, i = front.length + j := ⟨i - front.length, by omega⟩
    rw [List.getElem?_append_right (by omega), List.getElem?_append_right (by omega),
      Nat.add_sub_cancel_left]
    cases j with
    | zero =>
      obtain rfl : n = m := Option.some.inj (hi.symm.trans hm)
      exact .some h
    | succ j => exact rel_refl hF n _

/-- Values in another arrangement are alike. -/
theorem Arranged.alike (hkey : ∀ m n, schema.key m = schema.key n → m = n)
    (hF : ∀ m x, F m x x) (htrans : ∀ m x y z, F m x y → F m y z → F m x z)
    (hEF : ∀ m x x', E m x x' → F m x x') {v w : Json} (h : schema.Arranged E v w) :
    schema.Alike F v w := by
  have hsame : ∀ {members members' : List (String × Json)},
      (∀ key, member? members key = member? members' key) →
      schema.Alike F (.object members) (.object members') := fun hkeys =>
    .object fun m => hkeys (schema.key m) ▸ rel_refl hF m _
  induction h with
  | refl v => exact .same v
  | swap front back hne => exact hsame (member?_swap front back hne)
  | drop front x hlater => exact hsame (member?_drop front hlater x)
  | member front back hx => exact alike_replace hF hkey front back (hEF _ _ _ hx)
  | item front back hm hx => exact alike_item hF front back hm (hEF _ _ _ hx)
  | trans _ _ ih ih' => exact ih.trans htrans ih'

end WirelessArchive.Json.Schema
