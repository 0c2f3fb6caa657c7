import Mathlib.Tactic.SplitIfs
import WirelessArchive.Json.Skip
import WirelessArchive.Proofs.Json.Language
import WirelessArchive.Proofs.Json.Steps

/-!
# Passing over a value goes by the grammar

The machine that passes over a value takes nothing but JSON.  How a text goes on within a value is
told by the grammar (`Resumes`), and every byte that a step of the machine takes is as the grammar
has it: if the rest of a text goes on from the state after the byte, then the byte with the rest
goes on from the state before it (`step_pays`).
-/

namespace WirelessArchive.Json.Language

/-! ## How a string and a number go on -/

theorem isHexDigit_of_isSome {b : UInt8} (h : (hexDigit? b).isSome = true) : IsHexDigit b := by
  unfold hexDigit? at h
  split_ifs at h with hdigit hlower hupper
  · exact Or.inl hdigit
  · exact Or.inr (Or.inr hlower)
  · exact Or.inr (Or.inl hupper)
  · cases h

theorem mem_of_escapedByte? {b : UInt8} (h : (escapedByte? b).isSome = true) :
    b ∈ [0x22, 0x5C, 0x2F, 0x62, 0x66, 0x6E, 0x72, 0x74] := by
  unfold escapedByte? at h
  split_ifs at h with hself hb hf hn hr ht
  · obtain rfl | rfl | rfl := hself <;> decide
  · subst hb
    decide
  · subst hf
    decide
  · subst hn
    decide
  · subst hr
    decide
  · subst ht
    decide
  · cases h

/-- The rest of a string; the digits of an escape are judged together with it. -/
def ResumesString : Skip.StringMode → List UInt8 → List UInt8 → Prop
  | .plain, t, r => Characters t r
  | .escape, t, r => Characters (0x5C :: t) r
  | .hex digits, t, r => digits.length < 4 →
    (∀ d ∈ digits, IsHexDigit d) ∧ ∃ u, HexDigits (4 - digits.length) t u ∧ Characters u r

theorem resumesString_of_more {m m' : Skip.StringMode} {b : UInt8} (h : m.step b = .more m')
    {t r : List UInt8} (ht : ResumesString m' t r) : ResumesString m (b :: t) r := by
  cases m with
  | plain =>
    simp only [Skip.StringMode.step] at h
    split at h
    · cases h
    · next hquote =>
      split at h
      · next hbackslash =>
        cases h
        subst hbackslash
        exact ht
      · next hbackslash =>
        split at h <;> cases h
        next hcontrol => exact .plain (UInt8.not_lt.1 hcontrol) hquote hbackslash ht
  | escape =>
    simp only [Skip.StringMode.step] at h
    split at h
    · next hu =>
      cases h
      subst hu
      obtain ⟨-, u, hdigits, hrest⟩ := ht (by decide)
      exact .unicode hdigits hrest
    · split at h <;> cases h
      next hescaped =>
      exact .escape (mem_of_escapedByte? hescaped) ht
  | hex digits =>
    intro hlength
    have hfour : 4 - digits.length = 4 - (digits.length + 1) + 1 := by omega
    simp only [Skip.StringMode.step, List.length_cons] at h
    split at h
    · next hmore =>
      cases h
      obtain ⟨hhex, u, hdigits, hrest⟩ := ht hmore
      rw [List.forall_mem_cons] at hhex
      rw [hfour]
      exact ⟨hhex.2, u, .cons hhex.1 hdigits, hrest⟩
    · next hlast =>
      split at h <;> cases h
      next hall =>
      have hhex : ∀ d ∈ b :: digits, IsHexDigit d := fun d hd =>
        isHexDigit_of_isSome (List.all_eq_true.1 hall d hd)
      rw [List.forall_mem_cons] at hhex
      have hone : 4 - digits.length = 1 := by omega
      rw [hone]
      exact ⟨hhex.2, t, .cons hhex.1 (.nil t), ht⟩

theorem characters_of_done {m : Skip.StringMode} {b : UInt8} (h : m.step b = .done ())
    (r : List UInt8) : ResumesString m (b :: r) r := by
  cases m with
  | plain =>
    simp only [Skip.StringMode.step] at h
    split at h
    · next hquote =>
      subst hquote
      exact .close r
    · split at h
      · cases h
      · split at h <;> cases h
  | escape =>
    simp only [Skip.StringMode.step] at h
    split at h
    · cases h
    · split at h <;> cases h
  | hex digits =>
    simp only [Skip.StringMode.step] at h
    split at h
    · cases h
    · split at h <;> cases h

theorem step_ne_before (m : Skip.StringMode) (b : UInt8) : m.step b ≠ .before () := by
  intro h
  cases m with
  | plain =>
    simp only [Skip.StringMode.step] at h
    split at h
    · cases h
    · split at h
      · cases h
      · split at h <;> cases h
  | escape =>
    simp only [Skip.StringMode.step] at h
    split at h
    · cases h
    · split at h <;> cases h
  | hex digits =>
    simp only [Skip.StringMode.step] at h
    split at h
    · cases h
    · split at h <;> cases h

/-- The rest of a number. -/
def ResumesNumber : Phase → List UInt8 → List UInt8 → Prop
  | .sign, t, r => Magnitude t r
  | .zero, t, r => ∃ u, Fraction t u ∧ Exponent u r
  | .whole, t, r => ∃ u v, Digits t u ∧ Fraction u v ∧ Exponent v r
  | .point, t, r => ∃ u, Numerals t u ∧ Exponent u r
  | .fraction, t, r => ∃ u, Digits t u ∧ Exponent u r
  | .mark, t, r => Power t r
  | .markSign, t, r => Numerals t r
  | .exponent, t, r => Digits t r

/-- What the bytes that occur in numbers are. -/
theorem ofByte_spec (b : UInt8) :
    match Symbol.ofByte b with
    | .digit d => IsDigit b ∧ (d = 0 ↔ b = 0x30)
    | .plus => b = 0x2B
    | .minus => b = 0x2D
    | .point => b = 0x2E
    | .exponentMark => b = 0x65 ∨ b = 0x45
    | .other => True := by
  unfold Symbol.ofByte
  split_ifs with hdigit hplus hminus hpoint hmark
  · refine ⟨hdigit, ?_⟩
    obtain ⟨hlow, hhigh⟩ := hdigit
    rw [UInt8.le_iff_toNat_le] at hlow
    rw [← UInt8.toNat_inj]
    simp at hlow ⊢
    omega
  · exact hplus
  · exact hminus
  · exact hpoint
  · exact hmark
  · trivial

theorem resumesNumber_of_go {phase phase' : Phase} {b : UInt8}
    (h : phase.next (Symbol.ofByte b) = .go phase') {t r : List UInt8}
    (ht : ResumesNumber phase' t r) : ResumesNumber phase (b :: t) r := by
  have hb := ofByte_spec b
  generalize Symbol.ofByte b = symbol at h hb
  cases phase with
  | sign =>
    cases symbol with
    | digit d =>
      cases h
      obtain ⟨hdigit, hzero⟩ := hb
      by_cases hd : d = 0
      · rw [if_pos hd] at ht
        obtain ⟨u, hfraction, hexponent⟩ := ht
        rw [hzero.1 hd]
        exact .mk (.zero t) hfraction hexponent
      · rw [if_neg hd] at ht
        obtain ⟨u, v, hdigits, hfraction, hexponent⟩ := ht
        exact .mk (.digits hdigit (fun hb => hd (hzero.2 hb)) hdigits) hfraction hexponent
    | _ => cases h
  | zero =>
    cases symbol with
    | point =>
      cases h
      obtain ⟨u, hnumerals, hexponent⟩ := ht
      rw [hb]
      exact ⟨u, .some hnumerals, hexponent⟩
    | exponentMark =>
      cases h
      exact ⟨_, .none _, .some hb ht⟩
    | _ => cases h
  | whole =>
    cases symbol with
    | digit d =>
      cases h
      obtain ⟨u, v, hdigits, hrest⟩ := ht
      exact ⟨u, v, .cons hb.1 hdigits, hrest⟩
    | point =>
      cases h
      obtain ⟨u, hnumerals, hexponent⟩ := ht
      rw [hb]
      exact ⟨_, u, .nil _, .some hnumerals, hexponent⟩
    | exponentMark =>
      cases h
      exact ⟨_, _, .nil _, .none _, .some hb ht⟩
    | _ => cases h
  | point =>
    cases symbol with
    | digit d =>
      cases h
      obtain ⟨u, hdigits, hexponent⟩ := ht
      exact ⟨u, .cons hb.1 hdigits, hexponent⟩
    | _ => cases h
  | fraction =>
    cases symbol with
    | digit d =>
      cases h
      obtain ⟨u, hdigits, hexponent⟩ := ht
      exact ⟨u, .cons hb.1 hdigits, hexponent⟩
    | exponentMark =>
      cases h
      exact ⟨_, .nil _, .some hb ht⟩
    | _ => cases h
  | mark =>
    cases symbol with
    | digit d =>
      cases h
      exact .unsigned (.cons hb.1 ht)
    | plus =>
      cases h
      exact .signed (Or.inl hb) ht
    | minus =>
      cases h
      exact .signed (Or.inr hb) ht
    | _ => cases h
  | markSign =>
    cases symbol with
    | digit d =>
      cases h
      exact .cons hb.1 ht
    | _ => cases h
  | exponent =>
    cases symbol with
    | digit d =>
      cases h
      exact .cons hb.1 ht
    | _ => cases h

theorem resumesNumber_of_isComplete {phase : Phase} (h : phase.isComplete = true)
    (r : List UInt8) : ResumesNumber phase r r := by
  cases phase with
  | zero => exact ⟨r, .none r, .none r⟩
  | whole => exact ⟨r, r, .nil r, .none r, .none r⟩
  | fraction => exact ⟨r, .nil r, .none r⟩
  | exponent => exact .nil r
  | _ => cases h

/-- The byte that starts a number, and its rest. -/
theorem number_of_start? {b : UInt8} {n : Numeral} (h : Numeral.start? b = some n)
    {t r : List UInt8} (ht : ResumesNumber n.phase t r) : Number (b :: t) r := by
  have hb := ofByte_spec b
  unfold Numeral.start? at h
  cases hsymbol : Symbol.ofByte b with
  | minus =>
    rw [hsymbol] at h hb
    cases h
    rw [hb]
    exact .negative ht
  | digit d =>
    rw [hsymbol] at h
    cases h
    have hmagnitude : ResumesNumber .sign (b :: t) r :=
      resumesNumber_of_go (by rw [hsymbol]; rfl) ht
    exact .positive hmagnitude
  | _ =>
    rw [hsymbol] at h
    cases h

/-! ## How a value goes on -/

open Skip (Bracket)

/-- What follows a value within open containers, up to the end of the outermost. -/
inductive Closes : List Bracket → List UInt8 → List UInt8 → Prop where
  | nil (r : List UInt8) : Closes [] r r
  | listEnd {stack : List Bracket} {t u r : List UInt8} : Blanks t (0x5D :: u) →
    Closes stack u r → Closes (.list :: stack) t r
  | item {stack : List Bracket} {t u v w r : List UInt8} : Blanks t (0x2C :: u) → Blanks u v →
    Value v w → Closes (.list :: stack) w r → Closes (.list :: stack) t r
  | objectEnd {stack : List Bracket} {t u r : List UInt8} : Blanks t (0x7D :: u) →
    Closes stack u r → Closes (.object :: stack) t r
  | member {stack : List Bracket} {t u v w x y z r : List UInt8} : Blanks t (0x2C :: u) →
    Blanks u (0x22 :: v) → Characters v w → Blanks w (0x3A :: x) → Blanks x y → Value y z →
    Closes (.object :: stack) z r → Closes (.object :: stack) t r

/-- A value and what follows it in an array are elements. -/
theorem exists_elements {stack : List Bracket} {v r : List UInt8}
    (h : Closes (.list :: stack) v r) {t u : List UInt8} (ht : Blanks t u) (hu : Value u v) :
    ∃ w, Elements t (0x5D :: w) ∧ Closes stack w r := by
  generalize hstack : Bracket.list :: stack = open' at h
  induction h generalizing t u with
  | listEnd hblanks hclose _ =>
    cases hstack
    exact ⟨_, .last ⟨ht, hu, hblanks⟩, hclose⟩
  | item hblanks hnext hvalue _ ih =>
    obtain ⟨w, helements, hclose⟩ := ih hnext hvalue hstack
    exact ⟨w, .more ⟨ht, hu, hblanks⟩ helements, hclose⟩
  | _ => cases hstack

/-- A member and what follows it in an object are members. -/
theorem exists_members {stack : List Bracket} {y r : List UInt8}
    (h : Closes (.object :: stack) y r) {t u v w x : List UInt8} (ht : Blanks t (0x22 :: u))
    (hu : Characters u v) (hv : Blanks v (0x3A :: w)) (hw : Blanks w x) (hx : Value x y) :
    ∃ z, Members t (0x7D :: z) ∧ Closes stack z r := by
  generalize hstack : Bracket.object :: stack = open' at h
  induction h generalizing t u v w x with
  | objectEnd hblanks hclose _ =>
    cases hstack
    exact ⟨_, .last ⟨ht, hu, hv, ⟨hw, hx, hblanks⟩⟩, hclose⟩
  | member hblanks hkey hcharacters hcolon hnext hvalue _ ih =>
    obtain ⟨z, hmembers, hclose⟩ := ih hkey hcharacters hcolon hnext hvalue hstack
    exact ⟨z, .more ⟨ht, hu, hv, ⟨hw, hx, hblanks⟩⟩ hmembers, hclose⟩
  | _ => cases hstack

/-- A value, and what follows it. -/
def ResumesValue (stack : List Bracket) (t r : List UInt8) : Prop :=
  ∃ u v, Blanks t u ∧ Value u v ∧ Closes stack v r

/-- A colon and a value, and what follows them. -/
def ResumesColon (stack : List Bracket) (t r : List UInt8) : Prop :=
  ∃ u, Blanks t (0x3A :: u) ∧ ResumesValue stack u r

/-- A member, and what follows it. -/
def ResumesMember (stack : List Bracket) (t r : List UInt8) : Prop :=
  ∃ u v, Blanks t (0x22 :: u) ∧ Characters u v ∧ ResumesColon stack v r

/-- What follows within a value, and where it ends.  Of a state that nothing leads to, nothing is
said. -/
def Resumes (s : Skip.State) (t r : List UInt8) : Prop :=
  match s.control, s.stack with
  | .value, stack => ResumesValue stack t r
  | .firstItem, .list :: stack =>
    (∃ u, Blanks t (0x5D :: u) ∧ Closes stack u r) ∨ ResumesValue (.list :: stack) t r
  | .afterItem, .list :: stack => Closes (.list :: stack) t r
  | .firstKey, .object :: stack =>
    (∃ u, Blanks t (0x7D :: u) ∧ Closes stack u r) ∨ ResumesMember (.object :: stack) t r
  | .key m, .object :: stack => ∃ u, ResumesString m t u ∧ ResumesColon (.object :: stack) u r
  | .colon, .object :: stack => ResumesColon (.object :: stack) t r
  | .afterMember, .object :: stack => Closes (.object :: stack) t r
  | .nextKey, .object :: stack => ResumesMember (.object :: stack) t r
  | .literal owed, stack => ∃ u, t = owed ++ u ∧ Closes stack u r
  | .numeral phase, stack => ∃ u, ResumesNumber phase t u ∧ Closes stack u r
  | .text m, stack => ∃ u, ResumesString m t u ∧ Closes stack u r
  | .complete, _ => t = r
  | _, _ => True

theorem resumes_deliver {stack : List Bracket} {t r : List UInt8} :
    Resumes (Skip.deliver stack) t r ↔ Closes stack t r := by
  cases stack with
  | nil =>
    constructor
    · rintro rfl
      exact .nil t
    · rintro ⟨⟩
      rfl
  | cons bracket stack => cases bracket <;> rfl

/-! ## Each step goes by the grammar -/

theorem mem_of_isSpace {b : UInt8} (h : isSpace b = true) : b ∈ [0x20, 0x09, 0x0A, 0x0D] := by
  simp only [isSpace, Bool.or_eq_true, beq_iff_eq] at h
  obtain ((rfl | rfl) | rfl) | rfl := h <;> decide

/-- The byte that starts a value, and the rest of the value. -/
theorem value_of_begin {stack : List Bracket} {b : UInt8} {s : Skip.State}
    (h : Skip.begin stack b = .ok s) {t r : List UInt8} (ht : Resumes s t r) :
    ∃ u, Value (b :: t) u ∧ Closes stack u r := by
  unfold Skip.begin at h
  split at h
  · next hbracket =>
    cases h
    subst hbracket
    obtain ⟨u, hblanks, hclose⟩ | ⟨u, v, hblanks, hvalue, hclose⟩ := ht
    · exact ⟨u, .emptyArray hblanks, hclose⟩
    · obtain ⟨w, helements, hclose⟩ := exists_elements hclose hblanks hvalue
      exact ⟨w, .array helements, hclose⟩
  · split at h
    · next hbrace =>
      cases h
      subst hbrace
      obtain ⟨u, hblanks, hclose⟩ | ⟨u, v, hkey, hcharacters, w, hcolon, x, y, hblanks, hvalue,
        hclose⟩ := ht
      · exact ⟨u, .emptyObject hblanks, hclose⟩
      · obtain ⟨z, hmembers, hclose⟩ :=
          exists_members hclose hkey hcharacters hcolon hblanks hvalue
        exact ⟨z, .object hmembers, hclose⟩
    · unfold Scalar.start? at h
      split_ifs at h with hquote hn ht' hf
      · cases h
        subst hquote
        obtain ⟨u, hcharacters, hclose⟩ := ht
        exact ⟨u, .string hcharacters, hclose⟩
      · cases h
        subst hn
        obtain ⟨u, rfl, hclose⟩ := ht
        exact ⟨u, .null u, hclose⟩
      · cases h
        subst ht'
        obtain ⟨u, rfl, hclose⟩ := ht
        exact ⟨u, .yes u, hclose⟩
      · cases h
        subst hf
        obtain ⟨u, rfl, hclose⟩ := ht
        exact ⟨u, .no u, hclose⟩
      · cases hstart : Numeral.start? b with
        | none =>
          rw [hstart] at h
          cases h
        | some n =>
          rw [hstart] at h
          cases h
          obtain ⟨u, hnumber, hclose⟩ := ht
          exact ⟨u, .number (number_of_start? hstart hnumber), hclose⟩

/-- White space and marks are read here. -/
def IsBetween : Skip.Control → Prop
  | .value | .firstItem | .afterItem | .firstKey | .colon | .afterMember | .nextKey => True
  | _ => False

theorem ResumesValue.space {stack : List Bracket} {b : UInt8} (hb : isSpace b = true)
    {t r : List UInt8} (h : ResumesValue stack t r) : ResumesValue stack (b :: t) r := by
  obtain ⟨u, v, hblanks, hrest⟩ := h
  exact ⟨u, v, .cons (mem_of_isSpace hb) hblanks, hrest⟩

theorem ResumesMember.space {stack : List Bracket} {b : UInt8} (hb : isSpace b = true)
    {t r : List UInt8} (h : ResumesMember stack t r) : ResumesMember stack (b :: t) r := by
  obtain ⟨u, v, hblanks, hrest⟩ := h
  exact ⟨u, v, .cons (mem_of_isSpace hb) hblanks, hrest⟩

theorem ResumesColon.space {stack : List Bracket} {b : UInt8} (hb : isSpace b = true)
    {t r : List UInt8} (h : ResumesColon stack t r) : ResumesColon stack (b :: t) r := by
  obtain ⟨u, hblanks, hrest⟩ := h
  exact ⟨u, .cons (mem_of_isSpace hb) hblanks, hrest⟩

theorem Closes.space {bracket : Bracket} {stack : List Bracket} {b : UInt8}
    (hb : isSpace b = true) {t r : List UInt8} (h : Closes (bracket :: stack) t r) :
    Closes (bracket :: stack) (b :: t) r := by
  have hmem := mem_of_isSpace hb
  cases h with
  | listEnd hblanks hclose => exact .listEnd (.cons hmem hblanks) hclose
  | item hblanks hnext hvalue hclose => exact .item (.cons hmem hblanks) hnext hvalue hclose
  | objectEnd hblanks hclose => exact .objectEnd (.cons hmem hblanks) hclose
  | member hblanks hkey hcharacters hcolon hnext hvalue hclose =>
    exact .member (.cons hmem hblanks) hkey hcharacters hcolon hnext hvalue hclose

theorem resumes_space {s : Skip.State} (hs : IsBetween s.control) {b : UInt8}
    (hb : isSpace b = true) {t r : List UInt8} (ht : Resumes s t r) : Resumes s (b :: t) r := by
  have hmem := mem_of_isSpace hb
  obtain ⟨stack, control⟩ := s
  cases control with
  | value => exact ResumesValue.space hb ht
  | firstItem =>
    obtain _ | ⟨_ | _, stack⟩ := stack
    · trivial
    · obtain ⟨u, hblanks, hclose⟩ | hvalue := ht
      · exact Or.inl ⟨u, .cons hmem hblanks, hclose⟩
      · exact Or.inr (hvalue.space hb)
    · trivial
  | afterItem =>
    obtain _ | ⟨_ | _, stack⟩ := stack
    · trivial
    · exact Closes.space hb ht
    · trivial
  | firstKey =>
    obtain _ | ⟨_ | _, stack⟩ := stack
    · trivial
    · trivial
    · obtain ⟨u, hblanks, hclose⟩ | hmember := ht
      · exact Or.inl ⟨u, .cons hmem hblanks, hclose⟩
      · exact Or.inr (hmember.space hb)
  | colon =>
    obtain _ | ⟨_ | _, stack⟩ := stack
    · trivial
    · trivial
    · exact ResumesColon.space hb ht
  | afterMember =>
    obtain _ | ⟨_ | _, stack⟩ := stack
    · trivial
    · trivial
    · exact Closes.space hb ht
  | nextKey =>
    obtain _ | ⟨_ | _, stack⟩ := stack
    · trivial
    · trivial
    · exact ResumesMember.space hb ht
  | _ => cases hs

theorem resumes_between {s s' : Skip.State} (hs : IsBetween s.control) {b : UInt8}
    (h : Skip.between s b = .ok s') {t r : List UInt8} (ht : Resumes s' t r) :
    Resumes s (b :: t) r := by
  unfold Skip.between at h
  split at h
  · next hb =>
    cases h
    exact resumes_space hs hb ht
  · obtain ⟨stack, control⟩ := s
    have hvalue : ∀ {stack}, Skip.begin stack b = .ok s' → ResumesValue stack (b :: t) r := by
      intro stack hbegin
      obtain ⟨u, hvalue, hclose⟩ := value_of_begin hbegin ht
      exact ⟨_, u, .nil _, hvalue, hclose⟩
    cases control with
    | value => exact hvalue h
    | firstItem =>
      obtain _ | ⟨_ | _, stack⟩ := stack
      · trivial
      · simp only at h
        split at h
        · next hbracket =>
          rw [← Except.ok.inj h] at ht
          subst hbracket
          exact Or.inl ⟨t, .nil _, resumes_deliver.1 ht⟩
        · exact Or.inr (hvalue h)
      · trivial
    | afterItem =>
      obtain _ | ⟨_ | _, stack⟩ := stack
      · trivial
      · simp only at h
        split at h
        · next hcomma =>
          cases h
          subst hcomma
          obtain ⟨u, v, hblanks, hvalue, hclose⟩ := ht
          exact Closes.item (.nil _) hblanks hvalue hclose
        · split at h
          · next hbracket =>
            rw [← Except.ok.inj h] at ht
            subst hbracket
            exact Closes.listEnd (.nil _) (resumes_deliver.1 ht)
          · cases h
      · trivial
    | firstKey =>
      obtain _ | ⟨_ | _, stack⟩ := stack
      · trivial
      · trivial
      · simp only at h
        split at h
        · next hquote =>
          cases h
          subst hquote
          obtain ⟨u, hcharacters, hcolon⟩ := ht
          exact Or.inr ⟨t, u, .nil _, hcharacters, hcolon⟩
        · split at h
          · next hbrace =>
            rw [← Except.ok.inj h] at ht
            subst hbrace
            exact Or.inl ⟨t, .nil _, resumes_deliver.1 ht⟩
          · cases h
    | colon =>
      obtain _ | ⟨_ | _, stack⟩ := stack
      · trivial
      · trivial
      · simp only at h
        split at h
        · next hcolon =>
          cases h
          subst hcolon
          exact ⟨t, .nil _, ht⟩
        · cases h
    | afterMember =>
      obtain _ | ⟨_ | _, stack⟩ := stack
      · trivial
      · trivial
      · simp only at h
        split at h
        · next hcomma =>
          cases h
          subst hcomma
          obtain ⟨u, v, hkey, hcharacters, w, hcolon, x, y, hblanks, hvalue, hclose⟩ := ht
          exact Closes.member (.nil _) hkey hcharacters hcolon hblanks hvalue hclose
        · split at h
          · next hbrace =>
            rw [← Except.ok.inj h] at ht
            subst hbrace
            exact Closes.objectEnd (.nil _) (resumes_deliver.1 ht)
          · cases h
    | nextKey =>
      obtain _ | ⟨_ | _, stack⟩ := stack
      · trivial
      · trivial
      · simp only at h
        split at h
        · next hquote =>
          cases h
          subst hquote
          obtain ⟨u, hcharacters, hcolon⟩ := ht
          exact ⟨t, u, .nil _, hcharacters, hcolon⟩
        · cases h
    | _ => cases hs

/-- The byte goes on from the state, if what follows goes on from where the byte leads.  Where the
value goes on, it is not complete. -/
def Pays (s : Skip.State) (b : UInt8) : Progress Skip.State Unit Fault → Prop
  | .more s' => s'.control ≠ .complete ∧ ∀ t r, Resumes s' t r → Resumes s (b :: t) r
  | .done () => ∀ r, Resumes s (b :: r) r
  | .before () => ∀ r, Resumes s (b :: r) (b :: r)
  | .halt _ => True

theorem resumes_complete {s : Skip.State} (h : s.control = .complete) (r : List UInt8) :
    Resumes s r r := by
  obtain ⟨stack, control⟩ := s
  obtain rfl : control = .complete := h
  rfl

theorem pays_settle {s : Skip.State} {b : UInt8} {x : Except (Halt Fault) Skip.State}
    (h : ∀ s', x = .ok s' → ∀ t r, Resumes s' t r → Resumes s (b :: t) r) :
    Pays s b (Skip.settle x) := by
  cases x with
  | error halt => trivial
  | ok s' =>
    unfold Skip.settle
    dsimp only
    split
    · next hcomplete => exact fun r => h s' rfl r r (resumes_complete hcomplete r)
    · next hcomplete => exact ⟨hcomplete, h s' rfl⟩

/-- Where a part of the value is over before a byte, the byte goes on behind it. -/
theorem pays_follow {s : Skip.State} {b : UInt8} {stack : List Bracket}
    (h : ∀ t r, Closes stack t r → Resumes s t r) :
    Pays s b (Skip.follow (Skip.deliver stack) b) := by
  unfold Skip.follow
  split
  · next hcomplete =>
    exact fun r => h _ _ (resumes_deliver.1 (resumes_complete hcomplete _))
  · next hcomplete =>
    have hbetween : IsBetween (Skip.deliver stack).control := by
      cases stack with
      | nil => exact absurd rfl hcomplete
      | cons bracket stack => cases bracket <;> trivial
    refine pays_settle fun s' hs' t r ht => h _ _ ?_
    exact resumes_deliver.1 (resumes_between hbetween hs' ht)

/-- No step takes a byte that the grammar does not have. -/
theorem step_pays {s : Skip.State} (hs : s.control ≠ .complete) (b : UInt8) :
    Pays s b (Skip.step s b) := by
  obtain ⟨stack, control⟩ := s
  cases control with
  | literal owed =>
    cases owed with
    | nil => exact pays_follow fun t r ht => ⟨t, rfl, ht⟩
    | cons c owed =>
      simp only [Skip.step]
      split
      · trivial
      · next hb =>
        obtain rfl : b = c := Decidable.of_not_not hb
        split
        · next hempty =>
          obtain rfl := List.isEmpty_iff.1 hempty
          refine pays_settle ?_
          rintro s' hs' t r ht
          rw [← Except.ok.inj hs'] at ht
          exact ⟨t, rfl, resumes_deliver.1 ht⟩
        · refine ⟨Skip.Control.noConfusion, ?_⟩
          rintro t r ⟨u, rfl, hclose⟩
          exact ⟨u, rfl, hclose⟩
  | numeral phase =>
    simp only [Skip.step]
    split
    · next phase' hgo =>
      refine ⟨Skip.Control.noConfusion, ?_⟩
      rintro t r ⟨u, hu, hclose⟩
      exact ⟨u, resumesNumber_of_go hgo hu, hclose⟩
    · next hcomplete =>
      refine pays_follow fun t r ht => ⟨t, ?_, ht⟩
      exact resumesNumber_of_isComplete (Phase.isComplete_of_complete hcomplete) t
    · trivial
  | text m =>
    simp only [Skip.step]
    split
    · next m' hmore =>
      refine ⟨Skip.Control.noConfusion, ?_⟩
      rintro t r ⟨u, hu, hclose⟩
      exact ⟨u, resumesString_of_more hmore hu, hclose⟩
    · next hdone =>
      refine pays_settle ?_
      rintro s' hs' t r ht
      rw [← Except.ok.inj hs'] at ht
      exact ⟨t, characters_of_done hdone t, resumes_deliver.1 ht⟩
    · next hbefore => exact absurd hbefore (step_ne_before m b)
    · trivial
  | key m =>
    simp only [Skip.step]
    split
    · next m' hmore =>
      refine ⟨Skip.Control.noConfusion, ?_⟩
      obtain _ | ⟨_ | _, stack⟩ := stack
      · exact fun _ _ _ => trivial
      · exact fun _ _ _ => trivial
      · rintro t r ⟨u, hu, hcolon⟩
        exact ⟨u, resumesString_of_more hmore hu, hcolon⟩
    · next hdone =>
      refine ⟨Skip.Control.noConfusion, ?_⟩
      obtain _ | ⟨_ | _, stack⟩ := stack
      · exact fun _ _ _ => trivial
      · exact fun _ _ _ => trivial
      · exact fun t r ht => ⟨t, characters_of_done hdone t, ht⟩
    · next hbefore => exact absurd hbefore (step_ne_before m b)
    · trivial
  | complete => exact absurd rfl hs
  | _ =>
    refine pays_settle fun s' hs' t r ht => resumes_between ?_ hs' ht
    trivial

/-! ## Whole texts -/

/-- The rest of a value is all that follows, except for white space behind it. -/
def Ends (s : Skip.State) (t : List UInt8) : Prop := ∃ r, Resumes s t r ∧ Blanks r []

theorem ends_of_more {s s' : Skip.State} (hs : s.control ≠ .complete) {b : UInt8}
    (h : Skip.step s b = .more s') {t : List UInt8} (ht : Ends s' t) : Ends s (b :: t) := by
  have hpays := step_pays hs b
  rw [h] at hpays
  obtain ⟨r, hr, hblanks⟩ := ht
  exact ⟨r, hpays.2 t r hr, hblanks⟩

theorem ends_of_settle {s s' : Skip.State} (hs : s.control ≠ .complete) {b : UInt8}
    (h : Skip.step s b = Skip.settle (.ok s')) {t : List UInt8} (ht : Ends s' t) :
    Ends s (b :: t) := by
  have hpays := step_pays hs b
  obtain ⟨r, hr, hblanks⟩ := ht
  rw [h, Skip.settle] at hpays
  split at hpays
  · next hcomplete =>
    obtain ⟨stack, control⟩ := s'
    obtain rfl : control = .complete := hcomplete
    obtain rfl : t = r := hr
    exact ⟨t, hpays t, hblanks⟩
  · exact ⟨r, hpays.2 t r hr, hblanks⟩

theorem ends_of_before {s : Skip.State} (hs : s.control ≠ .complete) {b : UInt8}
    (h : Skip.step s b = .before ()) {t : List UInt8} (ht : Blanks (b :: t) []) :
    Ends s (b :: t) := by
  have hpays := step_pays hs b
  rw [h] at hpays
  exact ⟨b :: t, hpays t, ht⟩

end WirelessArchive.Json.Language
