import WirelessArchive.Text.Decimal
import WirelessArchive.Text.Split

/-!
# Numerals and parts of a text

Versions and link addresses are two parts with a mark between them.  A text has such parts in at
most one way, since the first mark divides it (`splitFirst?_eq_some_iff`), and the numbers in them
are given by numerals: decimal digits after an optional `+` (`IsNumeral`).  The reader of numbers
accepts exactly the numerals of the numbers below its limit (`parse?_eq_some_iff`).
-/

namespace WirelessArchive.Text

/-- A text is divided by the first mark in it. -/
theorem splitFirst?_eq_some_iff {sep : Char} {cs before after : List Char} :
    splitFirst? sep cs = some (before, after) ↔ cs = before ++ sep :: after ∧ sep ∉ before := by
  constructor
  · intro h
    have hmem : sep ∈ cs := by
      refine Decidable.of_not_not fun hsep => ?_
      rw [splitFirst?_eq_none_iff.2 hsep] at h
      cases h
    obtain ⟨front, back, rfl, hfront⟩ := List.eq_append_cons_of_mem hmem
    rw [splitFirst?_append hfront] at h
    obtain ⟨rfl, rfl⟩ := Prod.mk.inj (Option.some.inj h)
    exact ⟨rfl, hfront⟩
  · rintro ⟨rfl, hbefore⟩
    exact splitFirst?_append hbefore

/-- The same for strings, with the mark as a string between the parts. -/
theorem splitFirst?_toList_eq_some_iff {sep : Char} (mark : String)
    (hmark : mark.toList = [sep]) {text : String} {before after : List Char} :
    splitFirst? sep text.toList = some (before, after) ↔
      text = String.ofList before ++ mark ++ String.ofList after ∧ sep ∉ before := by
  rw [splitFirst?_eq_some_iff, ← String.toList_inj]
  simp [hmark]

theorem exists_parts {sep : Char} (mark : String) (hmark : mark.toList = [sep]) {text : String}
    (h : sep ∈ text.toList) :
    ∃ before after : String, text = before ++ mark ++ after ∧ sep ∉ before.toList := by
  obtain ⟨before, after, htext, hbefore⟩ := List.eq_append_cons_of_mem h
  refine ⟨.ofList before, .ofList after, ?_, by rwa [String.toList_ofList]⟩
  exact ((splitFirst?_toList_eq_some_iff mark hmark).1
    (splitFirst?_eq_some_iff.2 ⟨htext, hbefore⟩)).1

/-- What is read back from its text shares it with nothing else. -/
theorem injective_of_readBack {ε α : Type} {read : String → Except ε α} {write : α → String}
    (h : ∀ a, read (write a) = .ok a) : Function.Injective write := by
  intro a b hab
  have ha : read (write b) = .ok a := by rw [← hab, h]
  exact Except.ok.inj (ha.symm.trans (h b))

namespace Decimal

/-- At least one decimal digit, after an optional `+`; leading zeros add nothing to the number. -/
inductive IsNumeral : List Char → Nat → Prop where
  | unsigned {digits : List Char} : digits ≠ [] → (∀ c ∈ digits, c.isDigit = true) →
    IsNumeral digits (Nat.ofDigitChars 10 digits 0)
  | signed {digits : List Char} : digits ≠ [] → (∀ c ∈ digits, c.isDigit = true) →
    IsNumeral ('+' :: digits) (Nat.ofDigitChars 10 digits 0)

/-- A text is a numeral exactly if it has digits, and only digits, after the sign. -/
theorem isNumeral_iff {cs : List Char} {n : Nat} :
    IsNumeral cs n ↔ unsigned cs ≠ [] ∧ (unsigned cs).all Char.isDigit = true ∧
      Nat.ofDigitChars 10 (unsigned cs) 0 = n := by
  rw [List.all_eq_true]
  constructor
  · rintro (⟨hne, hdigits⟩ | ⟨hne, hdigits⟩)
    · rw [unsigned_of_all_isDigit (List.all_eq_true.2 hdigits)]
      exact ⟨hne, hdigits, rfl⟩
    · exact ⟨hne, hdigits, rfl⟩
  · rintro ⟨hne, hdigits, rfl⟩
    unfold unsigned at hne hdigits ⊢
    split at hne
    · exact .signed hne hdigits
    · next hsign =>
      split at hdigits
      · next digits => exact absurd rfl (hsign digits)
      · exact .unsigned hne hdigits

theorem isNumeral_toDigits (n : Nat) : IsNumeral (Nat.toDigits 10 n) n := by
  have hall := all_isDigit_toDigits n
  refine isNumeral_iff.2 ?_
  rw [unsigned_of_all_isDigit hall]
  exact ⟨Nat.toDigits_ne_nil, hall, Nat.ofDigitChars_toDigits (by decide) (by decide)⟩

/-- There is no mark in a numeral. -/
theorem IsNumeral.notMem {cs : List Char} {n : Nat} (h : IsNumeral cs n) {sep : Char}
    (hsign : sep ≠ '+') (hdigit : sep.isDigit = false) : sep ∉ cs := by
  have hdigits : ∀ {digits : List Char}, (∀ c ∈ digits, c.isDigit = true) → sep ∉ digits :=
    fun hd hmem => by simp [hd sep hmem] at hdigit
  cases h with
  | unsigned _ hd => exact hdigits hd
  | signed _ hd => exact List.not_mem_cons_of_ne_of_not_mem hsign (hdigits hd)

/-- The reader accepts exactly the numerals of the numbers below the limit. -/
theorem parse?_eq_some_iff {limit : Nat} {cs : List Char} {n : Nat} :
    parse? limit cs = some n ↔ IsNumeral cs n ∧ n < limit := by
  rw [isNumeral_iff]
  unfold parse?
  dsimp only
  split
  · next h =>
    obtain ⟨hne, hdigits, hlimit⟩ := h
    rw [Option.some.injEq]
    constructor
    · rintro rfl
      exact ⟨⟨hne, hdigits, rfl⟩, hlimit⟩
    · exact fun h => h.1.2.2
  · next h =>
    refine iff_of_false (by simp) ?_
    rintro ⟨⟨hne, hdigits, rfl⟩, hlimit⟩
    exact h ⟨hne, hdigits, hlimit⟩

end Decimal

end WirelessArchive.Text
