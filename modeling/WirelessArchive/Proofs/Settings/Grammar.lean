import WirelessArchive.Settings.Reader
import WirelessArchive.Proofs.Json.Arrangement
import WirelessArchive.Proofs.Json.Ending
import WirelessArchive.Proofs.Json.Grammar

/-!
# What an object says about settings

An object gives settings if each member of the settings occurs at most once in it and has a value of
its type; a member that does not occur stands for its default (`IsSettings`).  The order of the
members does not matter, nor do keys that no member has (`IsSettings.of_perm`).
-/

namespace WirelessArchive.Settings

open Json

/-! ## Members -/

theorem Member.key_injective {m n : Member} (h : m.key = n.key) : m = n := by
  cases m <;> cases n <;> first | rfl | simp [Member.key] at h

theorem Member.ofKey?_eq_some_iff {key : String} {m : Member} :
    Member.ofKey? key = some m ↔ key = m.key := by
  constructor
  · intro h
    have hkey := List.find?_some h
    exact (beq_iff_eq.1 hkey).symm
  · rintro rfl
    cases m <;> rfl

theorem Member.ofKey?_eq_none_iff {key : String} :
    Member.ofKey? key = none ↔ ∀ m : Member, key ≠ m.key := by
  rw [Option.eq_none_iff_forall_ne_some]
  exact forall_congr' fun m => not_congr Member.ofKey?_eq_some_iff

/-- What a member of the settings is, if it is given by a value or absent. -/
def Spells (s : Settings) : Member → Option Json → Prop
  | .schemaVersion, x => OrAbsent IsWord32 1 x s.schemaVersion
  | .prettyPrint, x => OrAbsent IsTruth false x s.prettyPrint
  | .maxBlobBytes, x => OrAbsent IsWord64 1048576 x s.maxBlobBytes

theorem spells_default (m : Member) : Spells {} m none := by
  cases m <;> exact .absent

/-- Settings are determined by what their members are given by. -/
theorem eq_of_spells {s r : Settings} (h : ∀ m, ∃ x, s.Spells m x ∧ r.Spells m x) : s = r := by
  obtain ⟨x, hx, hx'⟩ := h .schemaVersion
  obtain ⟨y, hy, hy'⟩ := h .prettyPrint
  obtain ⟨z, hz, hz'⟩ := h .maxBlobBytes
  have hversion : s.schemaVersion = r.schemaVersion := reads_word32.orAbsent_unique hx hx'
  have hpretty : s.prettyPrint = r.prettyPrint := reads_truth.orAbsent_unique hy hy'
  have hbytes : s.maxBlobBytes = r.maxBlobBytes := reads_size.orAbsent_unique hz hz'
  cases s
  cases r
  congr

/-- Putting a value into the settings settles its member and keeps the others. -/
theorem put_spells {s s' : Settings} {m : Member} {v : Json} (h : s.put m v = .ok s') :
    s'.Spells m (some v) ∧ ∀ n, n ≠ m → ∀ x, s.Spells n x → s'.Spells n x := by
  cases m with
  | schemaVersion =>
    obtain ⟨a, ha, rfl⟩ := map_eq_ok_iff.1 h
    refine ⟨.given ((reads_word32 v a).1 ha), fun n hn x hx => ?_⟩
    cases n with
    | schemaVersion => exact absurd rfl hn
    | _ => exact hx
  | prettyPrint =>
    obtain ⟨a, ha, rfl⟩ := map_eq_ok_iff.1 h
    refine ⟨.given ((reads_truth v a).1 ha), fun n hn x hx => ?_⟩
    cases n with
    | prettyPrint => exact absurd rfl hn
    | _ => exact hx
  | maxBlobBytes =>
    obtain ⟨a, ha, rfl⟩ := map_eq_ok_iff.1 h
    refine ⟨.given ((reads_size v a).1 ha), fun n hn x hx => ?_⟩
    cases n with
    | maxBlobBytes => exact absurd rfl hn
    | _ => exact hx

/-- A value that a member can have is put. -/
theorem exists_put {r : Settings} {m : Member} {v : Json} (h : r.Spells m (some v))
    (s : Settings) : ∃ s', s.put m v = .ok s' := by
  cases m with
  | schemaVersion =>
    exact ⟨_, map_eq_ok_iff.2 ⟨_, (reads_word32 v _).2 (OrAbsent.given_iff.1 h), rfl⟩⟩
  | prettyPrint => exact ⟨_, map_eq_ok_iff.2 ⟨_, (reads_truth v _).2 (OrAbsent.given_iff.1 h), rfl⟩⟩
  | maxBlobBytes => exact ⟨_, map_eq_ok_iff.2 ⟨_, (reads_size v _).2 (OrAbsent.given_iff.1 h), rfl⟩⟩

/-- No member is a container. -/
theorem not_spells_container {r : Settings} {m : Member} {v : Json} (hv : v.IsContainer) :
    ¬r.Spells m (some v) := by
  intro h
  cases m with
  | schemaVersion =>
    obtain ⟨fits, rfl⟩ := OrAbsent.given_iff.1 h
    cases hv
  | prettyPrint =>
    obtain rfl := OrAbsent.given_iff.1 h
    cases hv
  | maxBlobBytes =>
    obtain ⟨fits, rfl⟩ := OrAbsent.given_iff.1 h
    cases hv

/-! ## Objects -/

/-- The object gives these settings. -/
structure IsSettings (members : List (String × Json)) (s : Settings) : Prop where
  once : ∀ m : Member, (members.map Prod.fst).count m.key ≤ 1
  spells : ∀ m : Member, s.Spells m (member? members m.key)

theorem IsSettings.unique {members : List (String × Json)} {s r : Settings}
    (hs : IsSettings members s) (hr : IsSettings members r) : s = r :=
  eq_of_spells fun m => ⟨_, hs.spells m, hr.spells m⟩

theorem isSettings_nil : IsSettings [] {} :=
  ⟨fun _ => Nat.zero_le 1, spells_default⟩

section Append

variable {members : List (String × Json)} {s : Settings} {key : String} {v : Json}

theorem count_append_singleton (m : Member) :
    ((members ++ [(key, v)]).map Prod.fst).count m.key =
      (members.map Prod.fst).count m.key + if key = m.key then 1 else 0 := by
  rw [List.map_append, List.count_append, List.map_singleton, List.count_singleton]
  simp only [beq_iff_eq]

theorem member?_append_singleton (m : Member) :
    member? (members ++ [(key, v)]) m.key =
      if m.key = key then some v else member? members m.key := by
  rw [Schema.member?_append, Schema.member?_singleton]
  split <;> rfl

/-- An unknown member says nothing about the settings. -/
theorem IsSettings.append_unknown (h : IsSettings members s) (hkey : ∀ m : Member, key ≠ m.key) :
    IsSettings (members ++ [(key, v)]) s := by
  constructor
  · intro m
    rw [count_append_singleton, if_neg (hkey m)]
    exact h.once m
  · intro m
    rw [member?_append_singleton, if_neg (hkey m).symm]
    exact h.spells m

/-- A member that has not occurred before is put into the settings. -/
theorem IsSettings.append_put (h : IsSettings members s) {m : Member}
    (hm : m.key ∉ members.map Prod.fst) {s' : Settings} (hput : s.put m v = .ok s') :
    IsSettings (members ++ [(m.key, v)]) s' := by
  obtain ⟨hspells, hframe⟩ := put_spells hput
  constructor
  · intro n
    rw [count_append_singleton]
    split
    · next hkey =>
      have hzero := List.count_eq_zero_of_not_mem hm
      rw [← hkey]
      omega
    · exact h.once n
  · intro n
    rw [member?_append_singleton]
    split
    · next hkey =>
      rw [Member.key_injective hkey]
      exact hspells
    · next hkey => exact hframe n (fun e => hkey (congrArg Member.key e)) _ (h.spells n)

variable {whole : List (String × Json)} {m : Member}

/-- An object with a member that occurs twice gives no settings. -/
theorem not_isSettings_of_twice (hm : m.key ∈ members.map Prod.fst)
    (hfront : members ++ [(m.key, v)] <+: whole) : ¬IsSettings whole s := by
  intro h
  have hcount := (hfront.sublist.map Prod.fst).count_le m.key
  have hpos := List.count_pos_iff.2 hm
  have honce := h.once m
  rw [count_append_singleton, if_pos rfl] at hcount
  omega

/-- A member of an object that gives settings has a value that it can have. -/
theorem IsSettings.spells_of_mem (h : IsSettings whole s)
    (hfront : members ++ [(m.key, v)] <+: whole) : s.Spells m (some v) := by
  have hmem : (m.key, v) ∈ whole := hfront.subset (by simp)
  rw [← (Schema.member?_eq_some_iff (h.once m)).2 hmem]
  exact h.spells m

end Append

/-! ## Objects that say the same -/

/-- The entries that say something about the settings. -/
def known (members : List (String × Json)) : List (String × Json) :=
  members.filter fun entry => (Member.ofKey? entry.1).isSome

theorem isSome_ofKey? (m : Member) : (Member.ofKey? m.key).isSome = true := by
  rw [Member.ofKey?_eq_some_iff.2 rfl]
  rfl

theorem count_known (members : List (String × Json)) (m : Member) :
    ((known members).map Prod.fst).count m.key = (members.map Prod.fst).count m.key := by
  rw [List.count_eq_countP, List.count_eq_countP, List.countP_map, List.countP_map, known,
    List.countP_filter]
  refine List.countP_congr fun entry _ => ?_
  simp only [Function.comp_apply, Bool.and_eq_true, beq_iff_eq]
  refine and_iff_left_of_imp fun hkey => ?_
  rw [hkey]
  exact isSome_ofKey? m

theorem mem_known_iff {members : List (String × Json)} {m : Member} {v : Json} :
    (m.key, v) ∈ known members ↔ (m.key, v) ∈ members := by
  rw [known, List.mem_filter]
  exact and_iff_left (isSome_ofKey? m)

/-- Neither the order of the members nor unknown ones change what an object gives. -/
theorem IsSettings.of_perm {members members' : List (String × Json)} {s : Settings}
    (h : IsSettings members s) (hperm : (known members).Perm (known members')) :
    IsSettings members' s := by
  have honce : ∀ m : Member, (members'.map Prod.fst).count m.key ≤ 1 := by
    intro m
    rw [← count_known, ← (hperm.map Prod.fst).count_eq, count_known]
    exact h.once m
  refine ⟨honce, fun m => ?_⟩
  have hmember : member? members' m.key = member? members m.key := by
    refine Option.ext fun v => ?_
    rw [Schema.member?_eq_some_iff (honce m), Schema.member?_eq_some_iff (h.once m)]
    exact mem_known_iff.symm.trans (hperm.mem_iff.symm.trans mem_known_iff)
  rw [hmember]
  exact h.spells m

end WirelessArchive.Settings
