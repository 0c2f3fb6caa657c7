import Mathlib.Data.List.Find
import WirelessArchive.Profile.ConfigKey

/-!
# Indexes by key

An index is looked up like the list that it is made of, read from the end: under each key stands the
last item with that key (`find?_ofList`).  What holds of a list therefore holds of its index: an
index of two lists is the index of the first with that of the second put over it, and an index of
items that are changed, but keep their keys, holds the changed items.
-/

namespace WirelessArchive.KeyIndex

variable {α β : Type}

/-- The keys of an index. -/
def keys (index : KeyIndex α) : List ConfigKey := index.entries.map Prod.fst

theorem mem_keys_iff {index : KeyIndex α} {k : ConfigKey} :
    k ∈ index.keys ↔ (index.find? k).isSome = true := by
  rw [find?, List.lookup_isSome_iff, keys, List.mem_map]
  constructor
  · rintro ⟨e, he, rfl⟩
    exact ⟨e, he, beq_self_eq_true e.1⟩
  · rintro ⟨e, he, hk⟩
    exact ⟨e, he, (eq_of_beq hk).symm⟩

/-! ## Insertion -/

theorem lookup_cons (j : ConfigKey) (v : α) (rest : List (ConfigKey × α)) (k : ConfigKey) :
    ((j, v) :: rest).lookup k = if j = k then some v else rest.lookup k := by
  rw [List.lookup_cons]
  by_cases hk : j = k
  · simp [hk]
  · have hne : (k == j) = false := beq_false_of_ne (Ne.symm hk)
    simp [hk, hne]

theorem lookup_insertEntry (key : ConfigKey) (value : α) (entries : List (ConfigKey × α))
    (k : ConfigKey) :
    (insertEntry key value entries).lookup k =
      if key = k then some value else entries.lookup k := by
  induction entries with
  | nil => exact lookup_cons key value [] k
  | cons e rest ih =>
    obtain ⟨j, v⟩ := e
    rw [insertEntry, lookup_cons]
    split
    · next hj =>
      subst hj
      rw [lookup_cons]
      split <;> rfl
    · next hj =>
      split
      · rw [lookup_cons, lookup_cons]
      · rw [lookup_cons, ih]
        by_cases hk : key = k
        · have hjk : ¬j = k := fun e => hj (hk.trans e.symm)
          simp [hk, hjk]
        · simp [hk]

/-- An insertion changes what stands under its key, and nothing else. -/
theorem find?_insert (index : KeyIndex α) (key : ConfigKey) (value : α) (k : ConfigKey) :
    (index.insert key value).find? k = if key = k then some value else index.find? k :=
  lookup_insertEntry key value index.entries k

theorem mem_keys_insert {index : KeyIndex α} {key k : ConfigKey} {value : α} :
    k ∈ (index.insert key value).keys ↔ key = k ∨ k ∈ index.keys := by
  rw [mem_keys_iff, mem_keys_iff, find?_insert]
  split
  · next hk => simp [hk]
  · next hk => simp [hk]

/-- The keys stand in increasing order. -/
def Ordered (index : KeyIndex α) : Prop := index.keys.Pairwise fun k k' => k.text < k'.text

theorem Ordered.insert {index : KeyIndex α} (h : index.Ordered) (key : ConfigKey) (value : α) :
    (index.insert key value).Ordered := by
  obtain ⟨entries⟩ := index
  induction entries with
  | nil => exact List.pairwise_singleton _ _
  | cons e rest ih =>
    obtain ⟨j, v⟩ := e
    obtain ⟨hj, hrest⟩ := List.pairwise_cons.1 h
    rw [KeyIndex.insert, insertEntry]
    split
    · next hkey =>
      subst hkey
      exact h
    · next hkey =>
      split
      · next hlt =>
        refine List.pairwise_cons.2 ⟨fun k hk => ?_, h⟩
        obtain rfl | hk := List.mem_cons.1 hk
        · exact hlt
        · exact String.lt_trans hlt (hj k hk)
      · next hle =>
        have htext : j.text ≠ key.text := fun e => hkey (congrArg ConfigKey.mk e.symm)
        refine List.pairwise_cons.2 ⟨fun k hk => ?_, ih hrest⟩
        have hmem : key = k ∨ k ∈ keys ⟨rest⟩ := mem_keys_insert.1 hk
        obtain rfl | hmem := hmem
        · exact Std.lt_of_le_of_ne hle htext
        · exact hj k hmem

/-! ## Lists -/

variable {key : α → ConfigKey}

theorem find?_foldl (items : List α) (index : KeyIndex α) (k : ConfigKey) :
    (items.foldl (fun index item => index.insert (key item) item) index).find? k =
      (items.reverse.find? fun item => key item = k).or (index.find? k) := by
  induction items generalizing index with
  | nil => rfl
  | cons x items ih =>
    rw [List.foldl_cons, ih, find?_insert, List.reverse_cons, List.find?_append, Option.or_assoc]
    congr 1
    by_cases hk : key x = k <;> simp [hk]

/-- Under a key stands the item that is found from the end of the list. -/
theorem find?_ofList (items : List α) (k : ConfigKey) :
    (ofList key items).find? k = items.reverse.find? fun item => key item = k := by
  rw [ofList, find?_foldl]
  exact Option.or_none

theorem ordered_ofList (items : List α) : (ofList key items).Ordered := by
  have h : ∀ index : KeyIndex α, index.Ordered →
      (items.foldl (fun index item => index.insert (key item) item) index).Ordered := by
    induction items with
    | nil => exact fun _ h => h
    | cons x items ih => exact fun index h => ih _ (h.insert (key x) x)
  exact h {} List.Pairwise.nil

theorem find?_ofList_eq_some_iff {items : List α} {k : ConfigKey} {x : α} :
    (ofList key items).find? k = some x ↔
      ∃ front back, items = front ++ x :: back ∧ key x = k ∧ ∀ y ∈ back, key y ≠ k := by
  rw [find?_ofList, List.find?_eq_some_iff_append]
  constructor
  · rintro ⟨hx, front, back, h, hfront⟩
    refine ⟨back.reverse, front.reverse, ?_, of_decide_eq_true hx, fun y hy => ?_⟩
    · simpa using congrArg List.reverse h
    · simpa using hfront y (List.mem_reverse.1 hy)
  · rintro ⟨front, back, rfl, hx, hback⟩
    refine ⟨decide_eq_true hx, back.reverse, front.reverse, by simp, fun y hy => ?_⟩
    simpa using hback y (List.mem_reverse.1 hy)

theorem mem_keys_ofList {items : List α} {k : ConfigKey} :
    k ∈ (ofList key items).keys ↔ ∃ x ∈ items, key x = k := by
  rw [mem_keys_iff, find?_ofList, List.find?_isSome]
  simp

theorem find?_ofList_append (items items' : List α) (k : ConfigKey) :
    (ofList key (items ++ items')).find? k =
      ((ofList key items').find? k).or ((ofList key items).find? k) := by
  simp only [find?_ofList, List.reverse_append, List.find?_append]

theorem find?_ofList_map {f : α → β} {key' : β → ConfigKey} {items : List α}
    (h : ∀ x ∈ items, key' (f x) = key x) (k : ConfigKey) :
    (ofList key' (items.map f)).find? k = ((ofList key items).find? k).map f := by
  rw [find?_ofList, find?_ofList, ← List.map_reverse, List.find?_map]
  congr 1
  refine List.find?_congr fun x hx => ?_
  show decide (key' (f x) = k) = decide (key x = k)
  rw [h x (List.mem_reverse.1 hx)]

end WirelessArchive.KeyIndex
