import WirelessArchive.Json.Printer
import WirelessArchive.Json.Scalar
import WirelessArchive.Proofs.Text.Digits
import Mathlib.Tactic.SplitIfs

/-!
# Printed strings and numbers are read back

A piece of text (a string after its opening quote, a number after its first byte) is read by a
machine that does not know where the piece ends.  `Progress.run?` is the state of such a machine
after some bytes, provided that the piece is not over by then.  This file follows the two machines
through what the printer writes: `run?_escaped` for the content of a string, with `step_closing` for
the quote that ends it, and `run?_ofInteger` for the digits of an integer.
-/

namespace WirelessArchive.Json

/-! ## Running a piece -/

namespace Progress

variable {σ α ε : Type}

/-- The state after more bytes, as long as the piece goes on. -/
def run? (step : σ → UInt8 → Progress σ α ε) : σ → List UInt8 → Option σ
  | s, [] => some s
  | s, b :: rest =>
    match step s b with
    | .more s' => run? step s' rest
    | _ => none

variable {step : σ → UInt8 → Progress σ α ε}

theorem run?_nil (s : σ) : run? step s [] = some s := rfl

theorem run?_cons {s s' : σ} {b : UInt8} (h : step s b = .more s') (rest : List UInt8) :
    run? step s (b :: rest) = run? step s' rest := by
  rw [run?, h]

theorem run?_append {s s' : σ} {bytes : List UInt8} (h : run? step s bytes = some s')
    (rest : List UInt8) :
    run? step s (bytes ++ rest) = run? step s' rest := by
  induction bytes generalizing s with
  | nil =>
    rw [run?_nil, Option.some.injEq] at h
    rw [h, List.nil_append]
  | cons b bytes ih =>
    rw [run?] at h
    rw [List.cons_append, run?]
    split at h
    · exact ih h
    · cases h

/-- A run carries over to a machine that has this one as a part. -/
theorem run?_map {τ β : Type} {step' : τ → UInt8 → Progress τ β ε} (f : σ → τ)
    (hf : ∀ s b s', step s b = .more s' → step' (f s) b = .more (f s')) {s s' : σ}
    {bytes : List UInt8} (h : run? step s bytes = some s') :
    run? step' (f s) bytes = some (f s') := by
  induction bytes generalizing s with
  | nil =>
    cases h
    rfl
  | cons b bytes ih =>
    rw [run?] at h
    split at h
    · next u hu =>
      rw [run?_cons (hf s b u hu)]
      exact ih h
    · cases h

/-- A run carries over to a machine that feeds the piece. -/
theorem feed_of_run? {τ : Type} {step' : τ → UInt8 → Except (Halt ε) τ} (f : σ → τ)
    (hf : ∀ s b s', step s b = .more s' → step' (f s) b = .ok (f s')) {s s' : σ}
    {bytes : List UInt8} (h : run? step s bytes = some s') :
    feed step' (f s) bytes = .ok (f s') := by
  induction bytes generalizing s with
  | nil =>
    cases h
    rfl
  | cons b bytes ih =>
    rw [run?] at h
    split at h
    · next u hu =>
      rw [feed, hf s b u hu]
      exact ih h
    · cases h

end Progress

open Progress Text

/-! ## The content of a string -/

/-- The four digits of the escape of a control character denote it. -/
theorem hexValue?_control : ∀ n < 32,
    hexValue? [0x30, 0x30, Printer.hexDigit (UInt8.ofNat n / 16),
      Printer.hexDigit (UInt8.ofNat n % 16)] = some n := by
  decide

/-- A control character is its own encoding. -/
theorem utf8EncodeChar_control : ∀ n < 32,
    String.utf8EncodeChar (Char.ofNat n) = [UInt8.ofNat n] := by
  decide

theorem codeUnit_control (s : StringText) {b : UInt8} (hb : b < 0x20) :
    s.codeUnit none b.toNat = .ok (s.push [b]) := by
  have hn : b.toNat < 32 := UInt8.lt_iff_toNat_lt.1 hb
  have h1 : ¬ (0xDC00 ≤ b.toNat ∧ b.toNat ≤ 0xDFFF) := by omega
  have h2 : ¬ (0xD800 ≤ b.toNat ∧ b.toNat ≤ 0xDBFF) := by omega
  unfold StringText.codeUnit
  rw [if_neg h1, if_neg h2, utf8EncodeChar_control _ hn, UInt8.ofNat_toNat]

/-- The escape of a control character adds it to the content. -/
theorem run?_controlEscape (content : List UInt8) {b : UInt8} (hb : b < 0x20) :
    run? StringText.step ⟨content, .plain⟩
        [0x5C, 0x75, 0x30, 0x30, Printer.hexDigit (b / 16), Printer.hexDigit (b % 16)] =
      some ⟨b :: content, .plain⟩ := by
  have hn : b.toNat < 32 := UInt8.lt_iff_toNat_lt.1 hb
  have hv := hexValue?_control _ hn
  rw [UInt8.ofNat_toNat] at hv
  have hlast : StringText.step ⟨content, .hex none [Printer.hexDigit (b / 16), 0x30, 0x30]⟩
      (Printer.hexDigit (b % 16)) = .more ⟨b :: content, .plain⟩ := by
    simp only [StringText.step, List.length_cons, List.length_nil, Nat.reduceAdd, Nat.lt_irrefl,
      if_false, List.reverse_cons, List.reverse_nil, List.nil_append, List.cons_append]
    rw [hv]
    simp only [codeUnit_control _ hb]
    rfl
  rw [run?_cons rfl, run?_cons rfl, run?_cons rfl, run?_cons rfl, run?_cons rfl, run?_cons hlast,
    run?_nil]

/-- What the printer writes for a byte adds this byte to the content. -/
theorem run?_escapedByte (content : List UInt8) (b : UInt8) :
    run? StringText.step ⟨content, .plain⟩ (Printer.escaped b) =
      some ⟨b :: content, .plain⟩ := by
  unfold Printer.escaped
  split_ifs with h1 h2 h3 h4 h5 h6 h7
  · obtain rfl | rfl := h1 <;> rfl
  · subst h2; rfl
  · subst h3; rfl
  · subst h4; rfl
  · subst h5; rfl
  · subst h6; rfl
  · exact run?_controlEscape content h7
  · rw [not_or] at h1
    have hb : StringText.step ⟨content, .plain⟩ b = .more ⟨b :: content, .plain⟩ := by
      simp only [StringText.step, if_neg h1.1, if_neg h1.2, if_neg h7]
      rfl
    rw [run?_cons hb, run?_nil]

theorem run?_escaped (content bytes : List UInt8) :
    run? StringText.step ⟨content, .plain⟩ (bytes.flatMap Printer.escaped) =
      some ⟨bytes.reverse ++ content, .plain⟩ := by
  induction bytes generalizing content with
  | nil => rfl
  | cons b bytes ih =>
    rw [List.flatMap_cons, run?_append (run?_escapedByte content b), ih, List.reverse_cons,
      List.append_assoc, List.singleton_append]

/-- The quote after the content of a text ends the string. -/
theorem step_closing (s : String) :
    StringText.step ⟨(Text.Utf8.encode s).reverse ++ [], .plain⟩ 0x22 = .done s := by
  simp only [StringText.step, StringText.close, List.append_nil, List.reverse_reverse,
    Text.Utf8.decode?_encode, if_true]

/-! ## Integers -/

namespace Numeral

/-- An integer of which all digits have been read. -/
def ofInteger (negative : Bool) (n : Nat) : Numeral :=
  ⟨if n = 0 then .zero else .whole, { negative, significand := n }⟩

theorem ofByte_digit {c : Char} (h : c.isDigit = true) :
    Symbol.ofByte c.toUInt8 = .digit (c.toNat - '0'.toNat) := by
  rw [Char.isDigit_iff_toNat] at h
  have h1 : '0'.toNat = 48 := rfl
  have h2 : '9'.toNat = 57 := rfl
  have hb : c.toUInt8.toNat = c.toNat := by
    show c.toNat % 256 = c.toNat
    omega
  have hl : (0x30 : UInt8) ≤ c.toUInt8 := UInt8.le_iff_toNat_le.2 (by rw [hb]; exact h.1)
  have hr : c.toUInt8 ≤ 0x39 := UInt8.le_iff_toNat_le.2 (by rw [hb]; exact h.2)
  rw [Symbol.ofByte, if_pos ⟨hl, hr⟩, hb, h1]

/-- Digits after the first extend the significand as long as 64 bits hold it. -/
theorem run?_wholeDigits {negative : Bool} {ds : List Char} (hd : ∀ c ∈ ds, c.isDigit = true)
    {m : Nat} (hm : Nat.ofDigitChars 10 ds m < 0x10000000000000000) :
    run? step ⟨.whole, { negative, significand := m }⟩ (Printer.ascii ds) =
      some ⟨.whole, { negative, significand := Nat.ofDigitChars 10 ds m }⟩ := by
  induction ds generalizing m with
  | nil => rw [Nat.ofDigitChars_nil]; rfl
  | cons c ds ih =>
    rw [Nat.ofDigitChars_cons] at hm ⊢
    have hle := Digits.le_ofDigitChars ds (10 * m + (c.toNat - '0'.toNat))
    have hstep : step ⟨.whole, { negative, significand := m }⟩ c.toUInt8 =
        .more ⟨.whole, { negative, significand := 10 * m + (c.toNat - '0'.toNat) }⟩ := by
      have hlt : m * 10 + (c.toNat - '0'.toNat) < 0x10000000000000000 := by omega
      simp only [step, ofByte_digit (hd c List.mem_cons_self), Phase.next, Tally.take?,
        Tally.wholeDigit, if_pos hlt, Bool.false_eq_true, if_false]
      rw [Nat.mul_comm m 10]
    rw [Printer.ascii, List.map_cons, run?_cons hstep]
    exact ih (fun x hx => hd x (List.mem_cons_of_mem c hx)) hm

/-- After its first digit, an integer is read to its end. -/
theorem run?_ofInteger (negative : Bool) {n : Nat} (hn : n < 0x10000000000000000) {c : Char}
    {ds : List Char} (h : Nat.toDigits 10 n = c :: ds) :
    run? step (ofInteger negative (c.toNat - '0'.toNat)) (Printer.ascii ds) =
      some (ofInteger negative n) := by
  by_cases h0 : n = 0
  · subst h0
    rw [Nat.toDigits_zero, List.cons.injEq] at h
    obtain ⟨rfl, rfl⟩ := h
    rfl
  · obtain ⟨c', ds', h', hc⟩ := Digits.toDigits_eq_cons h0
    rw [h, List.cons.injEq] at h'
    obtain ⟨rfl, rfl⟩ := h'
    have hd : ∀ x ∈ ds, x.isDigit = true := fun x hx =>
      Digits.isDigit_of_mem_toDigits (h ▸ List.mem_cons_of_mem c hx)
    have hv : Nat.ofDigitChars 10 ds (c.toNat - '0'.toNat) = n := by
      have := Nat.ofDigitChars_ten_toDigits (n := n)
      rwa [h, Nat.ofDigitChars_cons, Nat.mul_zero, Nat.zero_add] at this
    rw [ofInteger, if_neg hc, run?_wholeDigits hd (by rw [hv]; exact hn), hv, ofInteger, if_neg h0]

/-- A digit after the sign is the first digit of an integer. -/
theorem step_sign {c : Char} (hc : c.isDigit = true) :
    step ⟨.sign, { negative := true }⟩ c.toUInt8 =
      .more (ofInteger true (c.toNat - '0'.toNat)) := by
  have hlt : c.toNat - '0'.toNat < 10 := by
    rw [Char.isDigit_iff_toNat] at hc
    show c.toNat - 48 < 10
    have h2 : '9'.toNat = 57 := rfl
    omega
  simp only [step, ofByte_digit hc, Phase.next, ofInteger]
  by_cases h0 : c.toNat - '0'.toNat = 0
  · rw [h0]
    rfl
  · have hm : 0 * 10 + (c.toNat - '0'.toNat) < 0x10000000000000000 := by omega
    simp only [if_neg h0, Tally.take?, Tally.wholeDigit, Bool.false_eq_true, if_false, if_pos hm]
    rw [Nat.zero_mul, Nat.zero_add]

theorem integerValue_ofNat {t : Tally} (ht : t.negative = false) {n : Nat} (hs : t.significand = n)
    (h : -0x8000000000000000 ≤ (n : Int) ∧ (n : Int) < 0x10000000000000000) :
    t.integerValue = .integer n h := by
  subst hs
  have hn : t.significand < 0x10000000000000000 := by omega
  unfold Tally.integerValue
  rw [if_neg (by rw [ht]; exact Bool.false_ne_true), dif_pos hn]

theorem integerValue_negSucc {t : Tally} (ht : t.negative = true) {n : Nat}
    (hs : t.significand = n + 1)
    (h : -0x8000000000000000 ≤ Int.negSucc n ∧ Int.negSucc n < 0x10000000000000000) :
    t.integerValue = .integer (.negSucc n) h := by
  have hn : 0 < t.significand ∧ t.significand ≤ 0x8000000000000000 := by omega
  unfold Tally.integerValue
  rw [if_pos ht, dif_pos hn]
  congr 1
  rw [hs]
  rfl

theorem isComplete_ofInteger (negative : Bool) (n : Nat) :
    ((ofInteger negative n).phase = .zero ∨ (ofInteger negative n).phase = .whole) ∧
      (ofInteger negative n).phase.isComplete = true := by
  unfold ofInteger
  by_cases h : n = 0
  · rw [if_pos h]
    exact ⟨Or.inl rfl, rfl⟩
  · rw [if_neg h]
    exact ⟨Or.inr rfl, rfl⟩

/-- An integer that 64 bits hold is what its digits denote. -/
theorem finish_ofInteger (negative : Bool) (n : Nat) :
    (ofInteger negative n).finish = .ok (ofInteger negative n).tally.integerValue := by
  obtain ⟨hp, hc⟩ := isComplete_ofInteger negative n
  rw [finish, if_pos hc, Tally.value?, if_pos ⟨hp, rfl⟩]

/-- An integer is over at a byte that does not occur in numbers. -/
theorem step_ofInteger (negative : Bool) (n : Nat) {b : UInt8} (hb : Symbol.ofByte b = .other) :
    step (ofInteger negative n) b = .before (ofInteger negative n).tally.integerValue := by
  have hp : (ofInteger negative n).phase.next .other = .complete := by
    obtain hp | hp := (isComplete_ofInteger negative n).1 <;> rw [hp] <;> rfl
  simp only [step, hb, hp, finish_ofInteger]

end Numeral

/-! ## Scalars -/

namespace Scalar

theorem run?_text {t t' : StringText} {bytes : List UInt8}
    (h : run? StringText.step t bytes = some t') : run? step (text t) bytes = some (text t') :=
  run?_map text (fun _ _ _ hs => by rw [step, hs]; rfl) h

theorem run?_numeral {n n' : Numeral} {bytes : List UInt8}
    (h : run? Numeral.step n bytes = some n') :
    run? step (numeral n) bytes = some (numeral n') :=
  run?_map numeral (fun _ _ _ hs => by rw [step, hs]; rfl) h

/-- The scalar has this value if it ends here: at the end of the text or at a byte that does not
occur in numbers. -/
def Ends (s : Scalar) (v : Json) : Prop :=
  s.finish = .ok v ∧ ∀ b, Symbol.ofByte b = .other → s.step b = .before v

theorem ends_ofInteger {negative : Bool} {n : Nat} {k : Number}
    (h : (Numeral.ofInteger negative n).tally.integerValue = k) :
    Ends (numeral (.ofInteger negative n)) (.number k) := by
  refine ⟨?_, fun b hb => ?_⟩
  · rw [finish, Numeral.finish_ofInteger, h]
    rfl
  · rw [step, Numeral.step_ofInteger negative n hb, h]
    rfl

/-- The first byte of an integer starts a number. -/
theorem start?_digit {c : Char} (hc : c.isDigit = true) :
    start? c.toUInt8 = some (numeral (.ofInteger false (c.toNat - '0'.toNat))) := by
  have hs := Numeral.ofByte_digit hc
  have hne : ∀ b, Symbol.ofByte b = .other → c.toUInt8 ≠ b := by
    rintro b hb rfl
    rw [hb] at hs
    cases hs
  simp only [start?, if_neg (hne 0x22 rfl), if_neg (hne 0x6E rfl), if_neg (hne 0x74 rfl),
    if_neg (hne 0x66 rfl), Numeral.start?, hs, Option.map_some]
  rfl

/-- A printed integer is read to its end. -/
theorem run?_number {k : Int} (h : -0x8000000000000000 ≤ k ∧ k < 0x10000000000000000) :
    ∃ b rest s t, Printer.ascii (Printer.number (.integer k h)) = b :: rest ∧
      start? b = some s ∧ run? step s rest = some t ∧ Ends t (.number (.integer k h)) := by
  cases k with
  | ofNat n =>
    obtain ⟨c, ds, hd⟩ := List.exists_cons_of_ne_nil (Nat.toDigits_ne_nil (n := n) (b := 10))
    have hc : c.isDigit = true :=
      Digits.isDigit_of_mem_toDigits (hd ▸ List.mem_cons_self)
    have hn : n < 0x10000000000000000 := Int.ofNat_lt.1 h.2
    refine ⟨c.toUInt8, Printer.ascii ds, _, _, ?_, start?_digit hc,
      run?_numeral (Numeral.run?_ofInteger false hn hd),
      ends_ofInteger (Numeral.integerValue_ofNat rfl rfl h)⟩
    rw [Printer.number, hd]
    rfl
  | negSucc n =>
    obtain ⟨c, ds, hd⟩ := List.exists_cons_of_ne_nil (Nat.toDigits_ne_nil (n := n + 1) (b := 10))
    have hc : c.isDigit = true :=
      Digits.isDigit_of_mem_toDigits (hd ▸ List.mem_cons_self)
    have hn : n + 1 < 0x10000000000000000 := by omega
    have hstep : Numeral.step ⟨.sign, { negative := true }⟩ c.toUInt8 =
        .more (.ofInteger true (c.toNat - '0'.toNat)) := by
      rw [Numeral.step_sign hc]
    refine ⟨'-'.toUInt8, Printer.ascii (c :: ds), numeral ⟨.sign, { negative := true }⟩, _, ?_, rfl,
      run?_numeral ((run?_cons hstep _).trans (Numeral.run?_ofInteger true hn hd)),
      ends_ofInteger (Numeral.integerValue_negSucc rfl rfl h)⟩
    rw [Printer.number, hd]
    rfl

end Scalar

end WirelessArchive.Json
