import Mathlib.Tactic.SplitIfs
import WirelessArchive.Json.Scalar

/-!
# What a step within a scalar can do

The steps of the machines for strings, numbers and scalars, told once: where a byte leads from
(`step_eq_more`), which bytes end a scalar (`step_eq_done`) and which come behind one
(`step_eq_before`).  What the machines are compared with refers to these cases.
-/

namespace WirelessArchive.Json

/-! ## Strings -/

theorem foldlM_eq_none {ds : List UInt8} (h : ∃ d ∈ ds, hexDigit? d = none) (n : Nat) :
    (ds.foldlM (fun n b => (hexDigit? b).map (n * 16 + ·)) n : Option Nat) = none := by
  induction ds generalizing n with
  | nil =>
    obtain ⟨d, hd, -⟩ := h
    cases hd
  | cons b ds ih =>
    rw [List.foldlM_cons]
    cases hb : hexDigit? b with
    | none => rfl
    | some k =>
      refine ih ?_ _
      obtain ⟨d, hd, hnone⟩ := h
      obtain rfl | hd := List.mem_cons.1 hd
      · rw [hb] at hnone
        cases hnone
      · exact ⟨d, hd, hnone⟩

/-- The digits of an escape that has a value are hexadecimal. -/
theorem isSome_of_hexValue? {ds : List UInt8} {n : Nat} (h : hexValue? ds = some n) {d : UInt8}
    (hd : d ∈ ds) : (hexDigit? d).isSome = true := by
  refine Option.isSome_iff_ne_none.2 fun hnone => ?_
  have hvalue : hexValue? ds = none := foldlM_eq_none ⟨d, hd, hnone⟩ 0
  rw [hvalue] at h
  cases h

namespace StringText

/-- A code unit is complete, or a high surrogate that waits for its partner. -/
theorem mode_codeUnit {t t' : StringText} {high : Option Nat} {unit : Nat}
    (h : t.codeUnit high unit = .ok t') : t'.mode = .plain ∨ ∃ k, t'.mode = .partner k := by
  have hpush : ∀ bytes, (t.push bytes).mode = .plain := fun _ => rfl
  cases high with
  | none =>
    simp only [codeUnit] at h
    split at h
    · cases h
    · split at h
      · cases h
        exact Or.inr ⟨unit, rfl⟩
      · rw [← Except.ok.inj h, hpush]
        exact Or.inl rfl
  | some k =>
    simp only [codeUnit] at h
    split at h
    · rw [← Except.ok.inj h, hpush]
      exact Or.inl rfl
    · cases h

/-- A byte goes on with the string or is wrong, unless it is the quotation mark that ends it. -/
theorem step_cases (t : StringText) (b : UInt8) :
    (∃ t', t.step b = .more t') ∨ (∃ h, t.step b = .halt h) ∨
      ∃ text, t.step b = .done text ∧ t.mode = .plain ∧ b = 0x22 := by
  obtain ⟨content, mode⟩ := t
  cases mode with
  | plain =>
    simp only [step]
    split
    · next hquote =>
      split
      · next text _ => exact Or.inr (Or.inr ⟨text, rfl, trivial, hquote⟩)
      · exact Or.inr (Or.inl ⟨_, rfl⟩)
    · split
      · exact Or.inl ⟨_, rfl⟩
      · split
        · exact Or.inr (Or.inl ⟨_, rfl⟩)
        · exact Or.inl ⟨_, rfl⟩
  | escape =>
    simp only [step]
    split
    · exact Or.inl ⟨_, rfl⟩
    · split
      · exact Or.inl ⟨_, rfl⟩
      · exact Or.inr (Or.inl ⟨_, rfl⟩)
  | hex high digits =>
    simp only [step]
    split
    · exact Or.inl ⟨_, rfl⟩
    · split
      · exact Or.inr (Or.inl ⟨_, rfl⟩)
      · split
        · exact Or.inl ⟨_, rfl⟩
        · exact Or.inr (Or.inl ⟨_, rfl⟩)
  | _ =>
    simp only [step]
    split
    · exact Or.inl ⟨_, rfl⟩
    · exact Or.inr (Or.inl ⟨_, rfl⟩)

end StringText

/-! ## Numbers -/

namespace Phase

theorem ne_other_of_go {phase phase' : Phase} {symbol : Symbol}
    (h : phase.next symbol = .go phase') : symbol ≠ .other := by
  rintro rfl
  cases phase <;> cases h

theorem isComplete_of_complete {phase : Phase} {symbol : Symbol}
    (h : phase.next symbol = .complete) : phase.isComplete = true := by
  cases phase <;> cases symbol <;> first | rfl | cases h

theorem next_other_of_isComplete {phase : Phase} (h : phase.isComplete = true) :
    phase.next .other = .complete := by
  cases phase <;> first | rfl | cases h

end Phase

namespace Numeral

theorem step_cases (n : Numeral) (b : UInt8) :
    (∃ n', n.step b = .more n' ∧ n.phase.next (Symbol.ofByte b) = .go n'.phase) ∨
      (∃ h, n.step b = .halt h) ∨
        ∃ k, n.step b = .before k ∧ n.phase.next (Symbol.ofByte b) = .complete ∧
          n.finish = .ok k := by
  simp only [step]
  split
  · exact Or.inr (Or.inl ⟨_, rfl⟩)
  · next hcomplete =>
    split
    · next k hk => exact Or.inr (Or.inr ⟨k, rfl, hcomplete, hk⟩)
    · exact Or.inr (Or.inl ⟨_, rfl⟩)
  · next hgo =>
    split
    · exact Or.inl ⟨_, rfl, hgo⟩
    · exact Or.inr (Or.inl ⟨_, rfl⟩)

end Numeral

/-! ## Scalars -/

namespace Scalar

/-- Where a byte leads from within a scalar. -/
inductive Goes (b : UInt8) : Scalar → Scalar → Prop where
  | literal {c : UInt8} {owed : List UInt8} (v : Json) :
    Goes b (.literal (b :: c :: owed) v) (.literal (c :: owed) v)
  | numeral {n n' : Numeral} : n.phase.next (Symbol.ofByte b) = .go n'.phase →
    Goes b (.numeral n) (.numeral n')
  | text {t t' : StringText} : t.step b = .more t' → Goes b (.text t) (.text t')

/-- The byte is the last one of the scalar, which has this value. -/
inductive Closes (b : UInt8) : Scalar → Json → Prop where
  | literal (v : Json) : Closes b (.literal [b] v) v
  | text {t : StringText} {s : String} : t.step b = .done s → t.mode = .plain → b = 0x22 →
    Closes b (.text t) (.string s)

/-- The scalar is over before the byte, and has this value. -/
inductive Precedes (b : UInt8) : Scalar → Json → Prop where
  | literal (v : Json) : Precedes b (.literal [] v) v
  | numeral {n : Numeral} {k : Number} : n.phase.next (Symbol.ofByte b) = .complete →
    n.finish = .ok k → Precedes b (.numeral n) (.number k)

/-- What a byte does to a scalar. -/
theorem step_spec (s : Scalar) (b : UInt8) :
    match s.step b with
    | .more s' => Goes b s s'
    | .done v => Closes b s v
    | .before v => Precedes b s v
    | .halt _ => True := by
  cases s with
  | literal owed v =>
    cases owed with
    | nil => exact .literal v
    | cons c owed =>
      simp only [step]
      by_cases hb : b = c
      · subst hb
        rw [if_neg (by simp)]
        cases owed with
        | nil => exact .literal v
        | cons c owed => exact .literal v
      · rw [if_pos hb]
        trivial
  | numeral n =>
    simp only [step]
    obtain ⟨n', hn, hgo⟩ | ⟨h, hn⟩ | ⟨k, hn, hcomplete, hk⟩ := n.step_cases b
    · rw [hn]
      exact .numeral hgo
    · rw [hn]
      trivial
    · rw [hn]
      exact .numeral hcomplete hk
  | text t =>
    simp only [step]
    obtain ⟨t', ht⟩ | ⟨h, ht⟩ | ⟨s, ht, hplain, hb⟩ := t.step_cases b
    · rw [ht]
      exact .text ht
    · rw [ht]
      trivial
    · rw [ht]
      exact .text ht hplain hb

theorem step_eq_more {s s' : Scalar} {b : UInt8} (h : s.step b = .more s') : Goes b s s' := by
  have hspec := s.step_spec b
  rwa [h] at hspec

theorem step_eq_done {s : Scalar} {b : UInt8} {v : Json} (h : s.step b = .done v) :
    Closes b s v := by
  have hspec := s.step_spec b
  rwa [h] at hspec

theorem step_eq_before {s : Scalar} {b : UInt8} {v : Json} (h : s.step b = .before v) :
    Precedes b s v := by
  have hspec := s.step_spec b
  rwa [h] at hspec

end Scalar

end WirelessArchive.Json
