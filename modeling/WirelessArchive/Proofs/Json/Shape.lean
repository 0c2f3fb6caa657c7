import WirelessArchive.Proofs.Address.RoundTrip
import WirelessArchive.Proofs.Json.RoundTrip
import WirelessArchive.Proofs.Json.Structure

/-!
# Values are read as what they were written from

One law for each shape of value that records use: bounded numbers, optional values, lists, and the
two kinds of addresses.  A member that holds nothing or an empty list is left out, and denotes just
that when it is absent.
-/

namespace WirelessArchive.Json

theorem asString_string (s : String) : asString (string s) = .ok s := rfl

theorem asNatural_natural {limit n : Nat} (type : String) (h : n < 0x10000000000000000)
    (hn : n < limit) :
    asNatural limit type (natural n h) = .ok n := by
  have hrange : 0 ≤ (n : Int) ∧ (n : Int) < (limit : Int) := by omega
  show (if 0 ≤ (n : Int) ∧ (n : Int) < (limit : Int) then Except.ok (n : Int).toNat else _) = _
  rw [if_pos hrange, Int.toNat_natCast]

theorem asOctet_octet (n : UInt8) : asOctet (octet n) = .ok n := by
  rw [asOctet, octet, asNatural_natural _ _ n.toNat_lt, Except.map, UInt8.ofNat_toNat]

theorem asWord16_word16 (n : UInt16) : asWord16 (word16 n) = .ok n := by
  rw [asWord16, word16, asNatural_natural _ _ n.toNat_lt, Except.map, UInt16.ofNat_toNat]

theorem asWord32_word32 (n : UInt32) : asWord32 (word32 n) = .ok n := by
  rw [asWord32, word32, asNatural_natural _ _ n.toNat_lt, Except.map, UInt32.ofNat_toNat]

/-- A value that is not null is read as the optional value it gives. -/
theorem asOption_some {α : Type} {read : Json → Read α} {v : Json} {a : α} (hv : v ≠ .null)
    (h : read v = .ok a) : asOption read v = .ok (some a) := by
  cases v with
  | null => exact absurd rfl hv
  | _ => simp only [asOption, h]; rfl

theorem asOption_ofString? (s : Option String) : asOption asString (ofString? s) = .ok s := by
  cases s <;> rfl

/-- A list is read back if each of its items is. -/
theorem asList_map {α : Type} {read : Json → Read α} {write : α → Json}
    (h : ∀ a, read (write a) = .ok a) (items : List α) :
    asList read (.array (items.map write)) = .ok items := by
  show (items.map write).mapM read = .ok items
  induction items with
  | nil => rfl
  | cons a items ih =>
    rw [List.map_cons, List.mapM_cons, h, ih]
    rfl

theorem asAddress_text (a : Address) : asAddress (.string a.text) = .ok a := by
  rw [asAddress, Address.text, String.toList_ofList, Address.parse?_toChars]

theorem asLink_text (l : LinkAddress) : asLink (.string l.text) = .ok l := by
  rw [asLink, LinkAddress.parse_text]

/-! ## Members that are left out -/

theorem denotes_map {α : Type} {read : Json → Read α} {write : α → Json}
    (h : ∀ a, read (write a) = .ok a) (hnull : ∀ a, write a ≠ .null) (a? : Option α) :
    Denotes (asOption read) none (a?.map write) a? := by
  cases a? with
  | none => rfl
  | some a => exact asOption_some (hnull a) (h a)

theorem denotes_string? (s : Option String) : Denotes (asOption asString) none (s.map string) s :=
  denotes_map asString_string (by nofun) s

theorem denotes_unless_nil {α : Type} {read : Json → Read α} {write : α → Json}
    (h : ∀ a, read (write a) = .ok a) (items : List α) :
    Denotes (asList read) [] (if items = [] then none else some (.array (items.map write)))
      items := by
  by_cases hnil : items = []
  · rw [if_pos hnil]
    exact hnil
  · rw [if_neg hnil]
    exact asList_map h items

/-! ## How deep they nest -/

theorem fits_natural (k : Nat) {n : Nat} (h : n < 0x10000000000000000) : Fits k (natural n h) :=
  .integer k n _

theorem fits_strings (items : List String) : Fits 1 (strings items) := by
  refine .array fun v hv => ?_
  obtain ⟨s, -, rfl⟩ := List.mem_map.1 hv
  exact .string 0 s

theorem fits_ofString? (k : Nat) (s : Option String) : Fits k (ofString? s) := by
  cases s with
  | none => exact .null k
  | some s => exact .string k s

theorem Schema.fits_written {μ : Type} (schema : Schema μ) {value? : μ → Option Json} {n : Nat}
    (h : ∀ m v, value? m = some v → Fits n v) :
    Fits (n + 1)
      (.object (schema.declared.filterMap fun m => (value? m).map (schema.key m, ·))) := by
  refine .object fun p hp => ?_
  obtain ⟨m, -, hm⟩ := List.mem_filterMap.1 hp
  obtain ⟨v, hv, rfl⟩ := Option.map_eq_some_iff.1 hm
  exact h m v hv

end WirelessArchive.Json
