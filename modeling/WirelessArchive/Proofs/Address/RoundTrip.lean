import WirelessArchive.Address.Link
import WirelessArchive.Proofs.Address.Grammar

/-!
# Addresses are read back from their text

The text of an address keeps to the grammar (`spells_toChars`), so that it is read as this address
(`parse?_toChars`).  Among the texts of an IPv6 address it is a particular one (`Writes`): of its
runs of zero groups the text leaves out the first of the longest (`leavesOut_longestZeroRun`), and
the reader fills in the zeros that are missing.  The text of a link address denotes it, too, since
no address has the mark of the prefix length in it (`parse_text`).
-/

namespace WirelessArchive

namespace Address

open Text.Digits

/-! ## Octets and groups -/

theorem isOctet_octetChars (n : UInt8) : IsOctet (octetChars n) n := by
  refine ⟨Nat.toDigits_ne_nil, fun c => isDigit_of_mem_toDigits, fun hhead => ?_,
    Nat.ofDigitChars_ten_toDigits⟩
  by_cases h0 : n.toNat = 0
  · rw [octetChars, h0, Nat.toDigits_zero]
  · obtain ⟨c, ds, hcs, hc⟩ := toDigits_eq_cons h0
    rw [octetChars, hcs, List.head?_cons, Option.some.injEq] at hhead
    rw [hhead] at hc
    exact absurd rfl hc

theorem isGroup_groupChars (g : UInt16) : IsGroup (groupChars g) g := by
  have hg : g.toNat < 65536 := g.toNat_lt
  refine ⟨Nat.toDigits_ne_nil, ?_, fun c => isHexDigit_of_mem_toDigits, hexValue_toDigits _⟩
  exact (Nat.length_toDigits_le_iff (by decide) (by decide)).2 (by omega)

namespace V4

theorem spells_toChars (a : V4) : Spells a.toChars a :=
  .octets (isOctet_octetChars _) (isOctet_octetChars _) (isOctet_octetChars _)
    (isOctet_octetChars _)

theorem groups_ofGroups (high low : UInt16) : (ofGroups high low).groups = [high, low] := by
  have key : ∀ g : UInt16, (g / 256).toUInt8.toUInt16 * 256 + g.toUInt8.toUInt16 = g := by
    intro g
    have hg : g.toNat < 65536 := g.toNat_lt
    apply UInt16.toNat_inj.1
    simp only [UInt16.toNat_add, UInt16.toNat_mul, UInt8.toNat_toUInt16, UInt16.toNat_toUInt8,
      UInt16.toNat_div, UInt16.reduceToNat]
    omega
  rw [groups, ofGroups, key, key]

end V4

/-! ## The run of zero groups -/

namespace V6

/-- The groups are those before a run of zeros, this run and those after it, and the run is the
first of the longest ones. -/
structure LeavesOut (groups before : List UInt16) (zeros : Nat) (after : List UInt16) : Prop where
  split : groups = before ++ List.replicate zeros 0 ++ after
  longest : ∀ b n a, groups = b ++ List.replicate n 0 ++ a → n ≤ zeros
  first : ∀ b a, groups = b ++ List.replicate zeros 0 ++ a → before.length ≤ b.length

theorem replicate_leadingZeros (groups : List UInt16) :
    List.replicate (leadingZeros groups) 0 ++ groups.drop (leadingZeros groups) = groups := by
  induction groups with
  | nil => rfl
  | cons g groups ih =>
    by_cases hg : (g == 0) = true
    · have hl : leadingZeros (g :: groups) = leadingZeros groups + 1 := by
        rw [leadingZeros, List.takeWhile_cons_of_pos (p := (· == 0)) hg]
        rfl
      rw [hl, List.replicate_succ, List.drop_succ_cons, List.cons_append, ih, eq_of_beq hg]
    · have hl : leadingZeros (g :: groups) = 0 := by
        rw [leadingZeros, List.takeWhile_cons_of_neg (p := (· == 0)) hg]
        rfl
      rw [hl]
      rfl

/-- No run of zeros at the front is longer than all the zeros there. -/
theorem le_leadingZeros (n : Nat) (after : List UInt16) :
    n ≤ leadingZeros (List.replicate n 0 ++ after) := by
  have hzeros : ∀ g ∈ List.replicate n (0 : UInt16), (g == 0) = true := by
    intro g hg
    rw [(List.mem_replicate.1 hg).2]
    rfl
  rw [leadingZeros, List.takeWhile_append_of_pos (p := (· == 0)) hzeros, List.length_append,
    List.length_replicate]
  exact Nat.le_add_right n _

theorem leavesOut_longestZeroRun (groups : List UInt16) :
    LeavesOut groups (groups.take (longestZeroRun groups).1) (longestZeroRun groups).2
      (groups.drop ((longestZeroRun groups).1 + (longestZeroRun groups).2)) := by
  induction groups with
  | nil =>
    refine ⟨rfl, fun b n a h => ?_, fun b a _ => Nat.zero_le _⟩
    have hlength := congrArg List.length h
    simp at hlength
    omega
  | cons g groups ih =>
    rw [longestZeroRun]
    dsimp only
    generalize longestZeroRun groups = run at ih
    obtain ⟨start, length⟩ := run
    -- a run starts with the first group or lies behind it
    have hrun : ∀ b n a, g :: groups = b ++ List.replicate n 0 ++ a →
        b = [] ∧ n ≤ leadingZeros (g :: groups) ∨
          ∃ b', b = g :: b' ∧ groups = b' ++ List.replicate n 0 ++ a := by
      intro b n a h
      cases b with
      | nil =>
        rw [List.nil_append] at h
        refine Or.inl ⟨rfl, ?_⟩
        rw [h]
        exact le_leadingZeros n a
      | cons g' b =>
        rw [List.cons_append, List.cons_append] at h
        obtain ⟨rfl, hb⟩ := List.cons.inj h
        exact Or.inr ⟨b, rfl, hb⟩
    split
    · next hhere =>
      refine ⟨?_, fun b n a h => ?_, fun b a _ => Nat.zero_le _⟩
      · rw [List.take_zero, List.nil_append, Nat.zero_add]
        exact (replicate_leadingZeros (g :: groups)).symm
      · obtain ⟨-, hn⟩ | ⟨b', -, hb⟩ := hrun b n a h
        · exact hn
        · exact Nat.le_trans (ih.longest b' n a hb) hhere
    · next hhere =>
      dsimp only at ih ⊢
      rw [Nat.not_le] at hhere
      refine ⟨?_, fun b n a h => ?_, fun b a h => ?_⟩
      · rw [List.take_succ_cons, Nat.add_right_comm, List.drop_succ_cons, List.cons_append,
          List.cons_append, ← ih.split]
      · obtain ⟨-, hn⟩ | ⟨b', -, hb⟩ := hrun b n a h
        · omega
        · exact ih.longest b' n a hb
      · obtain ⟨-, hn⟩ | ⟨b', rfl, hb⟩ := hrun b length a h
        · omega
        · rw [List.take_succ_cons, List.length_cons, List.length_cons]
          exact Nat.succ_le_succ (ih.first b' a hb)

/-! ## Joined groups -/

theorem isJoined_joinGroups (dotted : Bool) (g : UInt16) (groups : List UInt16) :
    IsJoined dotted (joinGroups (g :: groups)) (g :: groups) := by
  induction groups generalizing g with
  | nil =>
    rw [joinGroups, List.map_singleton, List.intercalate_singleton]
    exact .group (isGroup_groupChars g)
  | cons h groups ih =>
    have hcons : joinGroups (g :: h :: groups) =
        groupChars g ++ ':' :: joinGroups (h :: groups) := by
      rw [joinGroups, List.map_cons, List.map_cons, List.intercalate_cons_cons, ← List.map_cons,
        ← joinGroups, List.append_assoc]
      rfl
    rw [hcons]
    exact .more (isGroup_groupChars g) (ih h)

theorem isPart_joinGroups (dotted : Bool) (groups : List UInt16) :
    IsPart dotted (joinGroups groups) groups := by
  cases groups with
  | nil => exact .empty
  | cons g groups => exact .joined (isJoined_joinGroups dotted g groups)

end V6

/-! ## What is written -/

/-- The notation of an address that is written.  An IPv4 address is four octets.  Of an IPv6 address
that maps one, the last two groups are in dotted decimal; of any other, the first of the longest
runs of at least two zero groups is left out, and without one all eight groups are there. -/
inductive Writes : Address → List Char → Prop where
  | v4 {a : V4} {cs : List Char} : V4.Spells cs a → Writes (v4 a) cs
  | mapped {a : V6} {d : V4} {cs : List Char} : a.groups = [0, 0, 0, 0, 0, 0xFFFF] ++ d.groups →
    V4.Spells cs d → Writes (v6 a) ("::ffff:".toList ++ cs)
  | compressed {a : V6} {before after : List UInt16} {zeros : Nat} :
    (∀ d : V4, a.groups ≠ [0, 0, 0, 0, 0, 0xFFFF] ++ d.groups) →
    V6.LeavesOut a.groups before zeros after → 2 ≤ zeros →
    Writes (v6 a) (V6.joinGroups before ++ "::".toList ++ V6.joinGroups after)
  | whole {a : V6} : (∀ d : V4, a.groups ≠ [0, 0, 0, 0, 0, 0xFFFF] ++ d.groups) →
    (∀ before after, a.groups ≠ before ++ List.replicate 2 0 ++ after) →
    Writes (v6 a) (V6.joinGroups a.groups)

theorem writes_toChars (a : Address) : Writes a a.toChars := by
  cases a with
  | v4 a => exact .v4 a.spells_toChars
  | v6 a =>
    show Writes (v6 a) a.toChars
    unfold V6.toChars
    split
    · next high low hgroups =>
      refine .mapped ?_ (V4.spells_toChars _)
      rw [hgroups, V4.groups_ofGroups]
      rfl
    · next hmapped =>
      have hnot : ∀ d : V4, a.groups ≠ [0, 0, 0, 0, 0, 0xFFFF] ++ d.groups := fun d =>
        hmapped _ _
      have hleaves := V6.leavesOut_longestZeroRun a.groups
      generalize V6.longestZeroRun a.groups = run at hleaves
      obtain ⟨start, length⟩ := run
      dsimp only at hleaves ⊢
      split
      · next hlength => exact .compressed hnot hleaves hlength
      · next hlength =>
        refine .whole hnot fun before after h => ?_
        exact hlength (hleaves.longest before 2 after h)

/-- What is written of an address spells it. -/
theorem Writes.spells {a : Address} {cs : List Char} (h : Writes a cs) : Spells cs a := by
  cases h with
  | v4 h => exact .v4 h
  | @mapped a d cs hgroups hd =>
    have hmark : "::ffff:".toList ++ cs = [] ++ ':' :: ':' :: (groupChars 0xFFFF ++ ':' :: cs) := by
      have hg : groupChars 0xFFFF = "ffff".toList := by decide
      rw [hg]
      rfl
    rw [hmark]
    exact .v6 (.compressed .empty (.joined (.more (isGroup_groupChars _) (.dotted hd)))
      (by decide : 0 < 5) hgroups)
  | @compressed a before after zeros _ hleaves hzeros =>
    rw [List.append_assoc]
    exact .v6 (.compressed (V6.isPart_joinGroups false before) (V6.isPart_joinGroups true after)
      (by omega) hleaves.split)
  | @whole a =>
    exact .v6 (.whole ((V6.isPart_joinGroups true a.groups).isJoined a.groups_ne_nil))

theorem spells_toChars (a : Address) : Spells a.toChars a := (writes_toChars a).spells

/-- An address is read back from its text. -/
theorem parse?_toChars (a : Address) : parse? a.toChars = some a :=
  parse?_eq_some_iff.2 (spells_toChars a)

end Address

/-! ## Link addresses -/

namespace LinkAddress

theorem build_address (l : LinkAddress) : build l.address l.prefixLength = .ok l := by
  rw [build, dif_pos l.prefixLength_le]

/-- A link address is read back from its text. -/
theorem parse_text (l : LinkAddress) : parse l.text = .ok l := by
  have hlength : l.prefixLength.toNat < UInt8.size := l.prefixLength.toNat_lt
  have hslash : '/' ∉ l.address.toChars := (Address.spells_toChars l.address).slash_notMem
  unfold parse text toChars
  rw [String.toList_ofList, Text.splitFirst?_append hslash]
  dsimp only
  rw [Address.parse?_toChars]
  dsimp only
  rw [Text.Decimal.parse?_toDigits hlength]
  dsimp only
  rw [UInt8.ofNat_toNat, build_address]

end LinkAddress

end WirelessArchive
