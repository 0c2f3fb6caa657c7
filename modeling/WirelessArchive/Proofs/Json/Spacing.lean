import WirelessArchive.Proofs.Json.RoundTrip
import WirelessArchive.Proofs.Json.Steps

/-!
# White space between tokens

`unspaced` takes the white space out of a text, except for what stands in string literals.  For this
it looks at quotation marks and backslashes alone (`Quoting`).

A text that is read has the same value without its white space (`read_unspaced`): where the reader
of the text skips white space, the reader of the other one stands still, and is at most short of
noticing that a number is over (`Follows`).  So texts that differ only in white space between their
tokens have the same value (`eq_of_unspaced_eq`).
-/

namespace WirelessArchive.Json

/-- Where a byte stands with regard to string literals. -/
inductive Quoting where
  | outside
  | inside
  /-- After a backslash in a literal. -/
  | escaped
  deriving DecidableEq, Repr

/-- Where the byte after this one stands. -/
def Quoting.next : Quoting → UInt8 → Quoting
  | outside, b => if b = 0x22 then inside else outside
  | inside, b => if b = 0x22 then outside else if b = 0x5C then escaped else inside
  | escaped, _ => inside

/-- The text without the white space outside of string literals, from a place on. -/
def unspacedFrom : Quoting → List UInt8 → List UInt8
  | _, [] => []
  | q, b :: text =>
    if q = .outside ∧ isSpace b then unspacedFrom q text
    else b :: unspacedFrom (q.next b) text

/-- The text without the white space outside of string literals. -/
def unspaced (text : List UInt8) : List UInt8 := unspacedFrom .outside text

/-! ## Strings -/

namespace StringText

/-- Where the next byte of a string stands. -/
def quoting (t : StringText) : Quoting :=
  match t.mode with
  | .plain | .hex _ _ | .partner _ => .inside
  | .escape | .partnerEscape _ => .escaped

/-- An escape has a character that is no hexadecimal digit, which is not judged yet. -/
def Doomed (t : StringText) : Prop :=
  ∃ high digits, t.mode = .hex high digits ∧ ∃ d ∈ digits, hexDigit? d = none

theorem step_of_doomed {t t' : StringText} (h : t.Doomed) {b : UInt8} (hs : t.step b = .more t') :
    t'.Doomed := by
  obtain ⟨content, mode⟩ := t
  obtain ⟨high, digits, rfl, d, hd, hnone⟩ := h
  simp only [step] at hs
  split at hs
  · cases hs
    exact ⟨high, b :: digits, rfl, d, List.mem_cons_of_mem b hd, hnone⟩
  · have hvalue : hexValue? (b :: digits).reverse = none :=
      foldlM_eq_none ⟨d, List.mem_reverse.2 (List.mem_cons_of_mem b hd), hnone⟩ 0
    rw [hvalue] at hs
    cases hs

/-- Within a string, the quoting follows the bytes until the string is doomed. -/
theorem quoting_more {t t' : StringText} {b : UInt8} (h : t.step b = .more t') :
    t'.quoting = t.quoting.next b ∨ t'.Doomed := by
  obtain ⟨content, mode⟩ := t
  cases mode with
  | plain =>
    simp only [step] at h
    split at h
    · split at h <;> cases h
    · next hquote =>
      split at h
      · next hbackslash =>
        cases h
        exact Or.inl (by simp [quoting, Quoting.next, hbackslash])
      · next hbackslash =>
        split at h <;> cases h
        exact Or.inl (by simp [quoting, push, Quoting.next, hquote, hbackslash])
  | escape =>
    simp only [step] at h
    split at h
    · cases h
      exact Or.inl rfl
    · split at h <;> cases h
      exact Or.inl rfl
  | hex high digits =>
    cases hb : hexDigit? b with
    | none =>
      simp only [step] at h
      split at h
      · cases h
        exact Or.inr ⟨high, b :: digits, rfl, b, List.mem_cons_self, hb⟩
      · have hvalue : hexValue? (b :: digits).reverse = none :=
          foldlM_eq_none ⟨b, List.mem_reverse.2 List.mem_cons_self, hb⟩ 0
        rw [hvalue] at h
        cases h
    | some n =>
      have hnext : Quoting.next .inside b = .inside := by
        have hquote : b ≠ 0x22 := by
          rintro rfl
          cases hb
        have hbackslash : b ≠ 0x5C := by
          rintro rfl
          cases hb
        simp [Quoting.next, hquote, hbackslash]
      left
      show _ = Quoting.next .inside b
      rw [hnext]
      simp only [step] at h
      split at h
      · cases h
        rfl
      · split at h
        · cases h
        · split at h <;> cases h
          next hcode =>
          obtain hmode | ⟨k, hmode⟩ := mode_codeUnit hcode <;> simp only [quoting, hmode]
  | partner high =>
    simp only [step] at h
    split at h <;> cases h
    next hbackslash =>
    subst hbackslash
    exact Or.inl rfl
  | partnerEscape high =>
    simp only [step] at h
    split at h <;> cases h
    exact Or.inl rfl

end StringText

theorem StringText.quoting_ne_outside (t : StringText) : t.quoting ≠ .outside := by
  obtain ⟨content, mode⟩ := t
  intro h
  cases mode <;> cases h

/-! ## Scalars -/

theorem ofByte_isSpace {b : UInt8} (h : isSpace b = true) : Symbol.ofByte b = .other := by
  simp only [isSpace, Bool.or_eq_true, beq_iff_eq] at h
  obtain ((rfl | rfl) | rfl) | rfl := h <;> rfl

namespace Scalar

/-- Where the next byte of a scalar stands. -/
def quoting : Scalar → Quoting
  | text t => t.quoting
  | _ => .outside

/-- A literal owes neither white space nor quotation marks. -/
def Sound : Scalar → Prop
  | literal owed _ => ∀ c ∈ owed, isSpace c = false ∧ c ≠ 0x22
  | _ => True

/-- The scalar is a string that is doomed. -/
def Doomed : Scalar → Prop
  | text t => t.Doomed
  | _ => False

theorem start?_sound {b : UInt8} {s : Scalar} (h : start? b = some s) :
    s.Sound ∧ s.quoting = Quoting.next .outside b := by
  unfold start? at h
  split at h
  · next hb =>
    cases h
    exact ⟨trivial, by simp [quoting, StringText.quoting, Quoting.next, hb]⟩
  · next hb =>
    have hnext : Quoting.next .outside b = .outside := if_neg hb
    rw [hnext]
    split_ifs at h
    · cases h
      exact ⟨by simp [Sound, isSpace], rfl⟩
    · cases h
      exact ⟨by simp [Sound, isSpace], rfl⟩
    · cases h
      exact ⟨by simp [Sound, isSpace], rfl⟩
    · obtain ⟨n, -, rfl⟩ := Option.map_eq_some_iff.1 h
      exact ⟨trivial, rfl⟩

/-- The byte is a character of the scalar and not white space around it. -/
def Takes (s : Scalar) (b : UInt8) : Prop := ¬(s.quoting = .outside ∧ isSpace b = true)

theorem takes_of_more {s s' : Scalar} (hs : s.Sound) {b : UInt8} (h : s.step b = .more s') :
    s.Takes b ∧ (s'.Sound ∧ s'.quoting = s.quoting.next b ∨ s'.Doomed) := by
  cases step_eq_more h with
  | literal v =>
    obtain ⟨hspace, hquote⟩ := hs b List.mem_cons_self
    refine ⟨fun hb => ?_, Or.inl ⟨fun c hc => hs c (List.mem_cons_of_mem b hc), ?_⟩⟩
    · rw [hspace] at hb
      cases hb.2
    · exact (if_neg hquote).symm
  | numeral hgo =>
    have hother := Phase.ne_other_of_go hgo
    have hquote : b ≠ 0x22 := by
      rintro rfl
      exact hother rfl
    exact ⟨fun hb => hother (ofByte_isSpace hb.2), Or.inl ⟨trivial, (if_neg hquote).symm⟩⟩
  | @text t t' ht =>
    refine ⟨fun hb => t.quoting_ne_outside hb.1, ?_⟩
    exact (StringText.quoting_more ht).imp_left fun hq => ⟨trivial, hq⟩

theorem takes_of_done {s : Scalar} (hs : s.Sound) {b : UInt8} {v : Json} (h : s.step b = .done v) :
    s.Takes b ∧ s.quoting.next b = .outside := by
  cases step_eq_done h with
  | literal =>
    obtain ⟨hspace, hquote⟩ := hs b List.mem_cons_self
    refine ⟨fun hb => ?_, if_neg hquote⟩
    rw [hspace] at hb
    cases hb.2
  | @text t _ _ hplain hb =>
    subst hb
    refine ⟨fun hb => t.quoting_ne_outside hb.1, ?_⟩
    simp only [quoting, StringText.quoting, hplain]
    rfl

/-- A scalar that is over before a byte is over wherever it ends. -/
theorem ends_of_before {s : Scalar} {b : UInt8} {v : Json} (h : s.step b = .before v) :
    s.Ends v ∧ s.quoting = .outside := by
  cases step_eq_before h with
  | literal => exact ⟨⟨rfl, fun _ _ => rfl⟩, rfl⟩
  | numeral hcomplete hfinish =>
    have hother := Phase.next_other_of_isComplete (Phase.isComplete_of_complete hcomplete)
    refine ⟨⟨?_, fun b hb => ?_⟩, rfl⟩
    · rw [finish, hfinish]
      rfl
    · simp only [step, Numeral.step, hb, hother, hfinish, lift]

end Scalar

/-! ## The reader -/

namespace Reader

/-- Where the next byte stands. -/
def State.quoting (s : State) : Quoting :=
  match s.control with
  | .key _ t => t.quoting
  | .scalar scalar => scalar.quoting
  | _ => .outside

/-- The literal that is being read is sound. -/
def State.Sound (s : State) : Prop :=
  match s.control with
  | .scalar scalar => scalar.Sound
  | _ => True

/-- The string that is being read is doomed. -/
def State.Doomed (s : State) : Prop :=
  match s.control with
  | .key _ t => t.Doomed
  | .scalar scalar => scalar.Doomed
  | _ => False

/-- The quoting of the state follows the byte that led to it. -/
def State.After (s : State) (q : Quoting) (b : UInt8) : Prop :=
  s.Sound ∧ s.quoting = q.next b

theorem step_of_doomed {s u : State} (h : s.Doomed) {b : UInt8} (hs : step s b = .ok u) :
    u.Doomed := by
  obtain ⟨stack, control⟩ := s
  have hstring : ∀ {t : StringText}, t.Doomed →
      (∃ t', t.step b = .more t' ∧ t'.Doomed) ∨ ∃ halt, t.step b = .halt halt := by
    intro t ht
    obtain ⟨t', hmore⟩ | hhalt | ⟨text, -, hplain, -⟩ := t.step_cases b
    · exact Or.inl ⟨t', hmore, t.step_of_doomed ht hmore⟩
    · exact Or.inr hhalt
    · obtain ⟨high, digits, hhex, -⟩ := ht
      cases hplain.symm.trans hhex
  cases control with
  | key members t =>
    simp only [step] at hs
    obtain ⟨t', ht, hdoomed⟩ | ⟨halt, ht⟩ := hstring h
    · rw [ht] at hs
      cases hs
      exact hdoomed
    · rw [ht] at hs
      cases hs
  | scalar scalar =>
    cases scalar with
    | text t =>
      simp only [step, Scalar.step] at hs
      obtain ⟨t', ht, hdoomed⟩ | ⟨halt, ht⟩ := hstring h
      · rw [ht] at hs
        cases hs
        exact hdoomed
      · rw [ht] at hs
        cases hs
    | _ => cases h
  | _ => cases h

/-- No text is read from within a string that is doomed. -/
theorem not_accepts_of_doomed {s : State} (h : s.Doomed) (text : List UInt8) (v : Json) :
    ¬Accepts s text v := by
  induction text generalizing s with
  | nil =>
    rw [accepts_nil_iff]
    obtain ⟨stack, control⟩ := s
    intro hv
    cases control with
    | key members t => cases hv
    | scalar scalar =>
      cases scalar with
      | text t => cases hv
      | _ => cases h
    | _ => cases h
  | cons b text ih =>
    rw [accepts_cons_iff]
    rintro ⟨u, hu, ha⟩
    exact ih (step_of_doomed h hu) ha

theorem after_deliver {q : Quoting} {b : UInt8} (h : q.next b = .outside) (v : Json)
    (stack : List Frame) : (deliver v stack).After q b := by
  unfold State.After
  rw [h]
  cases stack with
  | nil => exact ⟨trivial, rfl⟩
  | cons frame stack => cases frame <;> exact ⟨trivial, rfl⟩

theorem after_begin {stack : List Frame} {b : UInt8} {u : State} (h : begin stack b = .ok u) :
    u.After .outside b := by
  unfold begin at h
  split at h
  · next hb =>
    have hquote : b ≠ 0x22 := by
      rintro rfl
      revert hb
      decide
    split at h
    · split at h <;> cases h <;> exact ⟨trivial, (if_neg hquote).symm⟩
    · cases h
  · split at h
    · next scalar hstart =>
      cases h
      exact Scalar.start?_sound hstart
    · cases h

/-- Between strings a quotation mark starts one, and no other byte does. -/
theorem after_between {s u : State} {b : UInt8} (hb : isSpace b = false)
    (hs : ∀ scalar, s.control ≠ .scalar scalar) (hk : ∀ members t, s.control ≠ .key members t)
    (h : between s b = .ok u) : u.After .outside b := by
  have hmark : ∀ {c : UInt8}, c ≠ 0x22 → b = c → Quoting.next .outside b = .outside := by
    rintro c hc rfl
    exact if_neg hc
  have hkey : ∀ members, b = 0x22 → State.After ⟨s.stack, .key members {}⟩ .outside b := by
    rintro members rfl
    exact ⟨trivial, rfl⟩
  have hspace : ¬isSpace b = true := by simp [hb]
  obtain ⟨stack, control⟩ := s
  simp only [between, if_neg hspace] at h
  cases control with
  | value => exact after_begin h
  | firstItem =>
    simp only at h
    split at h
    · next hbracket =>
      rw [← Except.ok.inj h]
      exact after_deliver (hmark (by decide) hbracket) _ _
    · exact after_begin h
  | afterItem items =>
    simp only at h
    split at h
    · next hcomma =>
      cases h
      exact ⟨trivial, (hmark (by decide) hcomma).symm⟩
    · split at h
      · next hbracket =>
        rw [← Except.ok.inj h]
        exact after_deliver (hmark (by decide) hbracket) _ _
      · cases h
  | nextItem =>
    simp only at h
    split at h
    · cases h
    · exact after_begin h
  | firstKey =>
    simp only at h
    split at h
    · next hquote =>
      cases h
      exact hkey [] hquote
    · split at h
      · next hbrace =>
        rw [← Except.ok.inj h]
        exact after_deliver (hmark (by decide) hbrace) _ _
      · cases h
  | colon members key =>
    simp only at h
    split at h
    · next hcolon =>
      cases h
      exact ⟨trivial, (hmark (by decide) hcolon).symm⟩
    · cases h
  | afterMember members =>
    simp only at h
    split at h
    · next hcomma =>
      cases h
      exact ⟨trivial, (hmark (by decide) hcomma).symm⟩
    · split at h
      · next hbrace =>
        rw [← Except.ok.inj h]
        exact after_deliver (hmark (by decide) hbrace) _ _
      · cases h
  | nextKey members =>
    simp only at h
    split at h
    · next hquote =>
      cases h
      exact hkey members hquote
    · split at h <;> cases h
  | key members t => exact absurd rfl (hk members t)
  | scalar scalar => exact absurd rfl (hs scalar)
  | complete v => cases h

/-! ## Skipping white space -/

/-- How the reader of a text without white space follows the one of the text: it is in the same
state, or it has not noticed yet that a number is over. -/
inductive Follows : State → State → Quoting → Prop where
  | same {s : State} {q : Quoting} : s.Sound → s.quoting = q → Follows s s q
  | short {scalar : Scalar} {v : Json} (stack : List Frame) : scalar.Ends v →
    Follows (deliver v stack) ⟨stack, .scalar scalar⟩ .outside

theorem State.After.follows {s : State} {q : Quoting} {b : UInt8} (h : s.After q b) :
    Follows s s (q.next b) := .same h.1 h.2

theorem control_deliver (v : Json) (stack : List Frame) :
    (∀ scalar, (deliver v stack).control ≠ .scalar scalar) ∧
      ∀ members t, (deliver v stack).control ≠ .key members t := by
  constructor
  · intro scalar h
    cases stack with
    | nil => cases h
    | cons frame stack => cases frame <;> cases h
  · intro members t h
    cases stack with
    | nil => cases h
    | cons frame stack => cases frame <;> cases h

/-- A byte that is taken after a value does not occur in numbers. -/
theorem ofByte_of_between_deliver {v : Json} {stack : List Frame} {b : UInt8} {u : State}
    (h : between (deliver v stack) b = .ok u) : Symbol.ofByte b = .other := by
  by_cases hb : isSpace b = true
  · exact ofByte_isSpace hb
  · cases stack with
    | nil =>
      simp only [between, if_neg hb] at h
      cases h
    | cons frame stack =>
      cases frame with
      | item items =>
        simp only [between, if_neg hb, deliver] at h
        split_ifs at h
        · next hcomma => exact hcomma ▸ rfl
        · next hbracket => exact hbracket ▸ rfl
        · cases h
      | member members key =>
        simp only [between, if_neg hb, deliver] at h
        split_ifs at h
        · next hcomma => exact hcomma ▸ rfl
        · next hbrace => exact hbrace ▸ rfl
        · cases h

/-- White space outside of strings is skipped. -/
theorem follows_space {s u : State} (hs : s.Sound) (hq : s.quoting = .outside) {b : UInt8}
    (hb : isSpace b = true) (hu : step s b = .ok u) : Follows u s .outside := by
  obtain ⟨stack, control⟩ := s
  cases control with
  | scalar scalar =>
    simp only [step] at hu
    cases hscalar : scalar.step b with
    | more scalar' => exact absurd ⟨hq, hb⟩ (scalar.takes_of_more hs hscalar).1
    | done v => exact absurd ⟨hq, hb⟩ (scalar.takes_of_done hs hscalar).1
    | before v =>
      rw [hscalar] at hu
      rw [← Except.ok.inj ((between_space _ hb).symm.trans hu)]
      exact .short stack (scalar.ends_of_before hscalar).1
    | halt h =>
      rw [hscalar] at hu
      cases hu
  | key members t => exact absurd hq t.quoting_ne_outside
  | _ =>
    rw [← Except.ok.inj ((between_space _ hb).symm.trans hu)]
    exact .same trivial rfl

/-- The quoting follows every other byte until a string is doomed. -/
theorem after_step {s u : State} (hs : s.Sound) {b : UInt8}
    (hb : ¬(s.quoting = .outside ∧ isSpace b = true)) (hu : step s b = .ok u) :
    u.After s.quoting b ∨ u.Doomed := by
  obtain ⟨stack, control⟩ := s
  cases control with
  | scalar scalar =>
    simp only [step] at hu
    cases hscalar : scalar.step b with
    | more scalar' =>
      rw [hscalar] at hu
      cases hu
      exact (scalar.takes_of_more hs hscalar).2
    | done v =>
      rw [hscalar] at hu
      cases hu
      exact Or.inl (after_deliver (scalar.takes_of_done hs hscalar).2 v stack)
    | before v =>
      rw [hscalar] at hu
      have hq : scalar.quoting = .outside := (scalar.ends_of_before hscalar).2
      have hspace : isSpace b = false := by
        rw [Bool.eq_false_iff]
        exact fun h => hb ⟨hq, h⟩
      obtain ⟨hnoscalar, hnokey⟩ := control_deliver v stack
      have hafter := after_between hspace hnoscalar hnokey hu
      rw [← hq] at hafter
      exact Or.inl hafter
    | halt h =>
      rw [hscalar] at hu
      cases hu
  | key members t =>
    simp only [step] at hu
    obtain ⟨t', ht⟩ | ⟨halt, ht⟩ | ⟨key, ht, hplain, rfl⟩ := t.step_cases b
    · rw [ht] at hu
      cases hu
      exact (t.quoting_more ht).imp_left fun hq => ⟨trivial, hq⟩
    · rw [ht] at hu
      cases hu
    · rw [ht] at hu
      cases hu
      refine Or.inl ⟨trivial, ?_⟩
      simp only [State.quoting, StringText.quoting, hplain]
      rfl
  | _ =>
    have hspace : isSpace b = false := by
      rw [Bool.eq_false_iff]
      exact fun h => hb ⟨rfl, h⟩
    exact Or.inl (after_between hspace (by intro _ h; cases h) (by intro _ _ h; cases h) hu)

theorem accepts_unspaced {text : List UInt8} {v : Json} {s s' : State} {q : Quoting}
    (h : Follows s s' q) (ha : Accepts s text v) : Accepts s' (unspacedFrom q text) v := by
  induction text generalizing s s' q with
  | nil =>
    rw [accepts_nil_iff] at ha
    rw [unspacedFrom, accepts_nil_iff]
    cases h with
    | same => exact ha
    | short stack hends => rwa [(settles_of_ends hends stack).1]
  | cons b text ih =>
    obtain ⟨u, hu, hrest⟩ := accepts_cons_iff.1 ha
    rw [unspacedFrom]
    cases h with
    | same hs hq =>
      subst hq
      split
      · next hb =>
        rw [hb.1]
        exact ih (follows_space hs hb.1 hb.2 hu) hrest
      · next hb =>
        obtain hafter | hdoomed := after_step hs hb hu
        · exact accepts_cons_iff.2 ⟨u, hu, ih hafter.follows hrest⟩
        · exact absurd hrest (not_accepts_of_doomed hdoomed text v)
    | @short scalar w stack hends =>
      rw [isBetween_deliver] at hu
      split
      · next hb =>
        rw [← Except.ok.inj ((between_space _ hb.2).symm.trans hu)] at hrest
        exact ih (.short stack hends) hrest
      · next hb =>
        -- the byte shows the other reader, too, that the number is over
        have hstep : step ⟨stack, .scalar scalar⟩ b = .ok u := by
          rw [(settles_of_ends hends stack).2 b (ofByte_of_between_deliver hu),
            isBetween_deliver, hu]
        have hspace : isSpace b = false := by
          rw [Bool.eq_false_iff]
          exact fun h => hb ⟨rfl, h⟩
        obtain ⟨hnoscalar, hnokey⟩ := control_deliver w stack
        exact accepts_cons_iff.2
          ⟨u, hstep, ih (after_between hspace hnoscalar hnokey hu).follows hrest⟩

end Reader

/-- A text that is read has the same value without white space between its tokens. -/
theorem read_unspaced {text : List UInt8} {v : Json} (h : read text = .ok v) :
    read (unspaced text) = .ok v := by
  rw [Reader.read_eq_ok_iff] at h ⊢
  exact Reader.accepts_unspaced (.same trivial rfl) h

/-- Texts that are read and differ only in white space between their tokens have the same value. -/
theorem eq_of_unspaced_eq {text other : List UInt8} {v w : Json} (hv : read text = .ok v)
    (hw : read other = .ok w) (h : unspaced text = unspaced other) : v = w := by
  have hread := read_unspaced hv
  rw [h, read_unspaced hw] at hread
  exact (Except.ok.inj hread).symm

end WirelessArchive.Json
