import WirelessArchive.Address.V6

/-!
# Digits

What the readers of numbers rely on: a run of digits is cut off exactly (`span_append`), a positive
number is written without a leading zero (`toDigits_eq_cons`), and the hexadecimal digits of a
number denote it (`hexValue_toDigits`).
-/

namespace WirelessArchive.Text.Digits

/-- A run of characters of a class is cut off where a character outside the class follows. -/
theorem span_append {p : Char → Bool} {run rest : List Char} (hrun : ∀ c ∈ run, p c = true)
    (hrest : ∀ c ∈ rest.head?, p c = false) :
    (run ++ rest).takeWhile p = run ∧ (run ++ rest).dropWhile p = rest := by
  rw [List.takeWhile_append_of_pos hrun, List.dropWhile_append_of_pos hrun]
  cases rest with
  | nil => exact ⟨List.append_nil run, rfl⟩
  | cons c rest =>
    have hc : ¬ p c = true := by
      rw [hrest c rfl]
      exact Bool.false_ne_true
    rw [List.takeWhile_cons_of_neg hc, List.dropWhile_cons_of_neg hc, List.append_nil]
    exact ⟨rfl, rfl⟩

/-! ## Decimal digits -/

/-- A positive number is written without a leading zero. -/
theorem toDigits_eq_cons {n : Nat} (hn : n ≠ 0) :
    ∃ c ds, Nat.toDigits 10 n = c :: ds ∧ c.toNat - '0'.toNat ≠ 0 := by
  induction n using Nat.base_induction 10 (by decide) with
  | single m hm =>
    refine ⟨m.digitChar, [], Nat.toDigits_of_lt_base hm, ?_⟩
    show m.digitChar.toNat - 48 ≠ 0
    rw [Nat.toNat_digitChar_sub_48_of_lt_ten hm]
    exact hn
  | digit m k hk hm ih =>
    obtain ⟨c, ds, h, hc⟩ := ih (Nat.pos_iff_ne_zero.1 hm)
    refine ⟨c, ds ++ Nat.toDigits 10 k, ?_, hc⟩
    rw [← Nat.toDigits_append_toDigits (by decide) hm hk, h, List.cons_append]

theorem toList_toString (n : Nat) : (toString n).toList = Nat.toDigits 10 n := String.toList_ofList

theorem isDigit_of_mem_toDigits {n : Nat} {c : Char} (h : c ∈ Nat.toDigits 10 n) :
    c.isDigit = true :=
  Nat.isDigit_of_mem_toDigits (by decide) (by decide) h

/-- Further digits never make a number smaller. -/
theorem le_ofDigitChars (ds : List Char) (m : Nat) : m ≤ Nat.ofDigitChars 10 ds m := by
  induction ds generalizing m with
  | nil => simp
  | cons c ds ih =>
    rw [Nat.ofDigitChars_cons]
    exact Nat.le_trans (by omega) (ih _)

/-! ## Hexadecimal digits -/

open Address

theorem hexDigit?_digitChar : ∀ d < 16, hexDigit? d.digitChar = some d := by decide

theorem isHexDigit_of_mem_toDigits {n : Nat} {c : Char} (h : c ∈ Nat.toDigits 16 n) :
    isHexDigit c = true := by
  induction n using Nat.base_induction 16 (by decide) with
  | single m hm =>
    rw [Nat.toDigits_of_lt_base hm, List.mem_singleton] at h
    rw [h, isHexDigit, hexDigit?_digitChar m hm]
    rfl
  | digit m k hk hm ih =>
    rw [← Nat.toDigits_append_toDigits (by decide) hm hk, List.mem_append,
      Nat.toDigits_of_lt_base hk, List.mem_singleton] at h
    obtain h | h := h
    · exact ih h
    · rw [h, isHexDigit, hexDigit?_digitChar k hk]
      rfl

theorem hexValue_append_digitChar (ds : List Char) {d : Nat} (hd : d < 16) :
    hexValue (ds ++ [d.digitChar]) = hexValue ds * 16 + d := by
  rw [hexValue, List.foldl_append, List.foldl_cons, List.foldl_nil, hexDigit?_digitChar d hd,
    Option.getD_some]
  rfl

/-- The hexadecimal digits of a number denote it. -/
theorem hexValue_toDigits (n : Nat) : hexValue (Nat.toDigits 16 n) = n := by
  induction n using Nat.base_induction 16 (by decide) with
  | single m hm =>
    have h := hexValue_append_digitChar [] hm
    rw [List.nil_append] at h
    rw [Nat.toDigits_of_lt_base hm, h]
    show 0 * 16 + m = m
    omega
  | digit m k hk hm ih =>
    rw [← Nat.toDigits_append_toDigits (by decide) hm hk, Nat.toDigits_of_lt_base hk,
      hexValue_append_digitChar _ hk, ih, Nat.mul_comm]

end WirelessArchive.Text.Digits
