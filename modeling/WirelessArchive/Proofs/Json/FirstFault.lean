import WirelessArchive.Proofs.Json.Structure

/-!
# The first fault

A reader of a list stops at the first item that it refuses, and a reader of an object at the first
member, in the order of the keys.  So what it reports of a value that it refuses is settled by what
comes before: if something there is refused, the value is not even looked at, and any other may
stand in its place (`read_congr_of_refused`); if nothing is, the value is what the report is about
(`read_of_refused`).
-/

namespace WirelessArchive.Json

/-! ## Lists -/

section Lists

variable {α : Type} {read : Json → Read α} {before : List Json}

theorem mapM_of_refused (hbefore : ∀ x ∈ before, ∃ a, read x = .ok a) {v : Json} {e : Mismatch}
    (hv : read v = .error e) (after : List Json) :
    (before ++ v :: after).mapM read = .error e := by
  induction before with
  | nil =>
    rw [List.nil_append, List.mapM_cons, hv]
    rfl
  | cons x before ih =>
    obtain ⟨a, ha⟩ := hbefore x List.mem_cons_self
    rw [List.cons_append, List.mapM_cons, ha, ih fun y hy => hbefore y (List.mem_cons_of_mem x hy)]
    rfl

theorem exists_mapM_of_refused_before (hbefore : ∃ x ∈ before, ∀ a, read x ≠ .ok a) :
    ∃ e, ∀ after, (before ++ after).mapM read = .error e := by
  have herror : ∃ e, before.mapM read = .error e := by
    induction before with
    | nil => simp at hbefore
    | cons x before ih =>
      rw [List.mapM_cons]
      cases hx : read x with
      | error e => exact ⟨e, rfl⟩
      | ok a =>
        obtain ⟨y, hy, hrefused⟩ := hbefore
        have hne : y ≠ x := fun h => hrefused a (h ▸ hx)
        obtain ⟨e, he⟩ := ih ⟨y, (List.mem_cons.1 hy).resolve_left hne, hrefused⟩
        exact ⟨e, by rw [he]; rfl⟩
  obtain ⟨e, he⟩ := herror
  refine ⟨e, fun after => ?_⟩
  rw [List.mapM_append, he]
  rfl

end Lists

/-! ## Structures -/

namespace Schema

variable {μ ρ : Type} {schema : Schema μ} {put : ρ → μ → Json → Read ρ} {blank : ρ}
  {Has : ρ → μ → Option Json → Prop}

theorem Fields.foldlM_of_refused (h : schema.Fields put blank Has) {given : μ → Option Json}
    {l : List μ} (hl : ∃ m ∈ l, ∃ v, given m = some v ∧ ∀ r, ¬Has r m (some v)) (t : ρ) :
    ∃ e, l.foldlM (putGiven put given) t = .error e := by
  induction l generalizing t with
  | nil => simp at hl
  | cons m l ih =>
    rw [List.foldlM_cons]
    cases hput : putGiven put given t m with
    | error e => exact ⟨e, rfl⟩
    | ok u =>
      obtain ⟨n, hn, v, hv, hrefused⟩ := hl
      have hne : n ≠ m := by
        rintro rfl
        unfold putGiven at hput
        rw [hv] at hput
        exact hrefused u (h.put_has hput)
      exact ih ⟨n, (List.mem_cons.1 hn).resolve_left hne, v, hv, hrefused⟩ u

theorem foldlM_given_congr {given given' : μ → Option Json} {l : List μ}
    (hl : ∀ m ∈ l, given' m = given m) (t : ρ) :
    l.foldlM (putGiven put given') t = l.foldlM (putGiven put given) t := by
  induction l generalizing t with
  | nil => rfl
  | cons m l ih =>
    have hm : putGiven put given' t m = putGiven put given t m := by
      rw [putGiven, hl m List.mem_cons_self, putGiven]
    rw [List.foldlM_cons, List.foldlM_cons, hm]
    congr 1
    exact funext fun u => ih (fun n hn => hl n (List.mem_cons_of_mem m hn)) u

/-- The members are listed in the order of their keys. -/
def IsSorted (schema : Schema μ) : Prop :=
  schema.byKey.Pairwise fun m n => schema.key m < schema.key n

/-- The members that are read before one are those whose keys come before. -/
theorem exists_byKey_eq (h : schema.Fields put blank Has) (hsorted : schema.IsSorted) (m : μ) :
    ∃ front back, schema.byKey = front ++ m :: back ∧
      ∀ n, n ∈ front ↔ schema.key n < schema.key m := by
  obtain ⟨front, back, hsplit⟩ := List.append_of_mem (h.mem_byKey m)
  refine ⟨front, back, hsplit, fun n => ?_⟩
  rw [IsSorted, hsplit, List.pairwise_append, List.pairwise_cons] at hsorted
  obtain ⟨-, ⟨hback, -⟩, hfront⟩ := hsorted
  refine ⟨fun hn => hfront n hn m List.mem_cons_self, fun hlt => ?_⟩
  have hmem := h.mem_byKey n
  rw [hsplit, List.mem_append, List.mem_cons] at hmem
  rcases hmem with hn | rfl | hn
  · exact hn
  · exact absurd hlt (String.lt_irrefl _)
  · exact absurd hlt (String.lt_asymm (hback n hn))

variable [BEq μ] {members members' : List (String × Json)} {m : μ}

theorem read_of_foldlM_error {e : Mismatch} {front back : List μ}
    (hsplit : schema.byKey = front ++ back)
    (he : front.foldlM (putGiven put fun n => member? members (schema.key n)) blank = .error e) :
    schema.read put blank (.object members) = .error e := by
  rw [read_object_eq, readGiven, hsplit, List.foldlM_append, he]
  rfl

/-- A member is reported that is refused, if none is before it. -/
theorem read_of_refused (h : schema.Fields put blank Has) (hsorted : schema.IsSorted)
    (hbefore : ∀ n x, schema.key n < schema.key m → member? members (schema.key n) = some x →
      ∃ r, Has r n (some x))
    {v : Json} (hm : member? members (schema.key m) = some v) {e : Mismatch}
    (he : ∀ t, put t m v = .error e) : schema.read put blank (.object members) = .error e := by
  obtain ⟨front, back, hsplit, hfront⟩ := exists_byKey_eq h hsorted m
  obtain ⟨t, ht⟩ : ∃ t, front.foldlM (putGiven put fun n => member? members (schema.key n)) blank =
      .ok t := h.foldlM_ok (fun n hn x hx => hbefore n x ((hfront n).1 hn) hx) blank
  have hsplit' : schema.byKey = front ++ [m] ++ back := by
    rw [hsplit, List.append_assoc, List.singleton_append]
  refine read_of_foldlM_error hsplit' ?_
  rw [List.foldlM_append, ht]
  show (putGiven put _ t m >>= pure) = _
  rw [putGiven, hm]
  exact congrArg (· >>= pure) (he t)

/-- If a member is refused, what the objects hold behind it is not reported. -/
theorem read_congr_of_refused (h : schema.Fields put blank Has) (hsorted : schema.IsSorted)
    (hsame : ∀ n, schema.key n < schema.key m →
      member? members' (schema.key n) = member? members (schema.key n))
    (hbefore : ∃ n x, schema.key n < schema.key m ∧ member? members (schema.key n) = some x ∧
      ∀ r, ¬Has r n (some x)) :
    ∃ e, schema.read put blank (.object members) = .error e ∧
      schema.read put blank (.object members') = .error e := by
  obtain ⟨front, back, hsplit, hfront⟩ := exists_byKey_eq h hsorted m
  obtain ⟨n, x, hlt, hx, hrefused⟩ := hbefore
  obtain ⟨e, he⟩ : ∃ e, front.foldlM (putGiven put fun n => member? members (schema.key n)) blank =
      .error e := h.foldlM_of_refused ⟨n, (hfront n).2 hlt, x, hx, hrefused⟩ blank
  refine ⟨e, read_of_foldlM_error hsplit he, read_of_foldlM_error hsplit ?_⟩
  rw [← he]
  exact foldlM_given_congr (fun k hk => hsame k ((hfront k).1 hk)) blank

end Schema

end WirelessArchive.Json
