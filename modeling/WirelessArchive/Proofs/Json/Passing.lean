import WirelessArchive.Proofs.Json.Ending
import WirelessArchive.Proofs.Json.Recognition

/-!
# What is read can be passed over

The machine that passes over a value goes in step with the reader: of a state of the reader it
keeps the kinds of the open containers and where in the text it stands (`shadow`), and it takes
every byte that the reader takes (`step_shadowed`).  Since it goes by the grammar, the reader reads
nothing but JSON (`isText_of_read`).
-/

namespace WirelessArchive.Json

open Skip (Bracket)

/-! ## Shadows -/

/-- Where the machine stands in a string. -/
def StringMode.shadow : StringMode → Skip.StringMode
  | plain | partner _ => .plain
  | escape | partnerEscape _ => .escape
  | hex _ digits => .hex digits

/-- Where the machine stands in a scalar. -/
def Scalar.shadow : Scalar → Skip.Control
  | literal owed _ => .literal owed
  | numeral n => .numeral n.phase
  | text t => .text t.mode.shadow

namespace Reader

/-- The kind of an open container. -/
def Frame.bracket : Frame → Bracket
  | item _ => .list
  | member _ _ => .object

/-- The state of the machine that goes in step with the reader. -/
def State.shadow (s : State) : Skip.State :=
  let stack := s.stack.map Frame.bracket
  match s.control with
  | .value | .nextItem => ⟨stack, .value⟩
  | .firstItem => ⟨stack, .firstItem⟩
  | .afterItem _ => ⟨.list :: stack, .afterItem⟩
  | .firstKey => ⟨.object :: stack, .firstKey⟩
  | .key _ t => ⟨.object :: stack, .key t.mode.shadow⟩
  | .colon _ _ => ⟨.object :: stack, .colon⟩
  | .afterMember _ => ⟨.object :: stack, .afterMember⟩
  | .nextKey _ => ⟨.object :: stack, .nextKey⟩
  | .scalar scalar => ⟨stack, scalar.shadow⟩
  | .complete _ => ⟨[], .complete⟩

@[simp]
theorem shadow_deliver (v : Json) (stack : List Frame) :
    (deliver v stack).shadow = Skip.deliver (stack.map Frame.bracket) := by
  cases stack with
  | nil => rfl
  | cons frame stack => cases frame <;> rfl

end Reader

/-! ## Strings -/

theorem StringText.step_shadowed {t t' : StringText} {b : UInt8} (h : t.step b = .more t') :
    t.mode.shadow.step b = .more t'.mode.shadow := by
  obtain ⟨content, mode⟩ := t
  cases mode with
  | plain =>
    simp only [step] at h
    split at h
    · split at h <;> cases h
    · next hquote =>
      split at h
      · next hbackslash =>
        cases h
        simp [StringMode.shadow, Skip.StringMode.step, hbackslash]
      · next hbackslash =>
        split at h <;> cases h
        next hcontrol =>
        simp [StringMode.shadow, Skip.StringMode.step, hquote, hbackslash, hcontrol, push]
  | escape =>
    simp only [step] at h
    split at h
    · next hu =>
      cases h
      simp [StringMode.shadow, Skip.StringMode.step, hu]
    · next hu =>
      split at h <;> cases h
      next c hescaped =>
      simp [StringMode.shadow, Skip.StringMode.step, hu, hescaped, push]
  | hex high digits =>
    simp only [step] at h
    split at h
    · next hmore =>
      cases h
      simp only [List.length_cons] at hmore
      simp [StringMode.shadow, Skip.StringMode.step, hmore]
    · next hlast =>
      split at h
      · cases h
      · next unit hunit =>
        split at h <;> cases h
        next hcode =>
        have hshadow : t'.mode.shadow = .plain := by
          obtain hmode | ⟨k, hmode⟩ := mode_codeUnit hcode <;> rw [hmode] <;> rfl
        have hdigits : ((b :: digits).all fun d => (hexDigit? d).isSome) = true :=
          List.all_eq_true.2 fun d hd => isSome_of_hexValue? hunit (List.mem_reverse.2 hd)
        rw [hshadow]
        simp only [StringMode.shadow, Skip.StringMode.step, if_neg hlast, if_pos hdigits]
  | partner high =>
    simp only [step] at h
    split at h <;> cases h
    next hbackslash =>
    simp [StringMode.shadow, Skip.StringMode.step, hbackslash]
  | partnerEscape high =>
    simp only [step] at h
    split at h <;> cases h
    next hu =>
    simp [StringMode.shadow, Skip.StringMode.step, hu]

theorem StringText.shadow_done {t : StringText} {b : UInt8} {text : String}
    (h : t.step b = .done text) : t.mode.shadow.step b = .done () := by
  obtain ⟨t', ht⟩ | ⟨halt, ht⟩ | ⟨_, -, hplain, hb⟩ := t.step_cases b
  · rw [ht] at h
    cases h
  · rw [ht] at h
    cases h
  · rw [hplain, hb]
    rfl

theorem StringText.key_of_more {t t' : StringText} {b : UInt8} (h : t.step b = .more t')
    (stack : List Bracket) :
    Skip.step ⟨stack, .key t.mode.shadow⟩ b = .more ⟨stack, .key t'.mode.shadow⟩ := by
  simp only [Skip.step, step_shadowed h]

theorem StringText.key_of_done {t : StringText} {b : UInt8} {text : String}
    (h : t.step b = .done text) (stack : List Bracket) :
    Skip.step ⟨stack, .key t.mode.shadow⟩ b = .more ⟨stack, .colon⟩ := by
  simp only [Skip.step, shadow_done h]

/-! ## Scalars -/

namespace Scalar

variable {s s' : Scalar} {b : UInt8} {v : Json}

theorem shadow_of_more (h : s.step b = .more s') (stack : List Bracket) :
    Skip.step ⟨stack, s.shadow⟩ b = .more ⟨stack, s'.shadow⟩ := by
  cases step_eq_more h with
  | literal => simp [Skip.step, shadow]
  | numeral hgo => simp [Skip.step, shadow, hgo]
  | text ht => simp [Skip.step, shadow, StringText.step_shadowed ht]

theorem shadow_of_done (h : s.step b = .done v) (stack : List Bracket) :
    Skip.step ⟨stack, s.shadow⟩ b = Skip.settle (.ok (Skip.deliver stack)) := by
  cases step_eq_done h with
  | literal => simp [Skip.step, shadow]
  | text ht => simp [Skip.step, shadow, StringText.shadow_done ht]

theorem shadow_of_before (h : s.step b = .before v) (stack : List Bracket) :
    Skip.step ⟨stack, s.shadow⟩ b = Skip.follow (Skip.deliver stack) b := by
  cases step_eq_before h with
  | literal => rfl
  | numeral hcomplete => simp [Skip.step, shadow, hcomplete]

theorem begin_of_start? (h : start? b = some s) (stack : List Bracket) :
    Skip.begin stack b = .ok ⟨stack, s.shadow⟩ := by
  have hlist : b ≠ 0x5B := by
    rintro rfl
    cases h
  have hobject : b ≠ 0x7B := by
    rintro rfl
    cases h
  rw [Skip.begin, if_neg hlist, if_neg hobject, h]
  unfold start? at h
  split_ifs at h
  · cases h
    rfl
  · cases h
    rfl
  · cases h
    rfl
  · cases h
    rfl
  · obtain ⟨n, -, rfl⟩ := Option.map_eq_some_iff.1 h
    rfl

end Scalar

/-! ## The reader -/

namespace Reader

theorem begin_shadowed {stack : List Frame} {b : UInt8} {u : State}
    (h : begin stack b = .ok u) : Skip.begin (stack.map Frame.bracket) b = .ok u.shadow := by
  unfold begin at h
  split at h
  · next hb =>
    split at h
    · split at h
      · next hbracket =>
        cases h
        exact if_pos hbracket
      · next hbracket =>
        cases h
        rw [Skip.begin, if_neg hbracket, if_pos (hb.resolve_left hbracket)]
        rfl
    · cases h
  · split at h
    · next scalar hstart =>
      cases h
      exact Scalar.begin_of_start? hstart _
    · cases h

theorem between_shadowed {s u : State} {b : UInt8} (h : between s b = .ok u) :
    Skip.between s.shadow b = .ok u.shadow := by
  have hdeliver : ∀ {v stack}, (Except.ok (deliver v stack) : Except (Halt Fault) State) = .ok u →
      (Except.ok (Skip.deliver (stack.map Frame.bracket)) : Except (Halt Fault) Skip.State) =
        .ok u.shadow := by
    intro v stack h
    rw [← Except.ok.inj h, shadow_deliver]
  unfold between at h
  unfold Skip.between
  split at h
  · next hb =>
    cases h
    exact if_pos hb
  · next hb =>
    rw [if_neg hb]
    obtain ⟨stack, control⟩ := s
    cases control with
    | value => exact begin_shadowed h
    | firstItem =>
      simp only at h
      split at h
      · next hbracket =>
        have hstack := hdeliver h
        rw [List.map_tail] at hstack
        exact (if_pos hbracket).trans hstack
      · next hbracket => exact (if_neg hbracket).trans (begin_shadowed h)
    | afterItem items =>
      simp only at h
      split at h
      · next hcomma =>
        cases h
        exact if_pos hcomma
      · next hcomma =>
        split at h
        · next hbracket => exact (if_neg hcomma).trans ((if_pos hbracket).trans (hdeliver h))
        · cases h
    | nextItem =>
      simp only at h
      split at h
      · cases h
      · exact begin_shadowed h
    | firstKey =>
      simp only at h
      split at h
      · next hquote =>
        cases h
        exact if_pos hquote
      · next hquote =>
        split at h
        · next hbrace => exact (if_neg hquote).trans ((if_pos hbrace).trans (hdeliver h))
        · cases h
    | key members t =>
      cases h
      rfl
    | colon members key =>
      simp only at h
      split at h
      · next hcolon =>
        cases h
        exact if_pos hcolon
      · cases h
    | afterMember members =>
      simp only at h
      split at h
      · next hcomma =>
        cases h
        exact if_pos hcomma
      · next hcomma =>
        split at h
        · next hbrace => exact (if_neg hcomma).trans ((if_pos hbrace).trans (hdeliver h))
        · cases h
    | nextKey members =>
      simp only at h
      split at h
      · next hquote =>
        cases h
        exact if_pos hquote
      · split at h <;> cases h
    | scalar scalar =>
      cases h
      cases scalar <;> rfl
    | complete v => cases h

theorem shadow_ne_complete (scalar : Scalar) : scalar.shadow ≠ .complete := by
  intro h
  cases scalar <;> cases h

theorem shadow_control_ne_complete {s : State} (h : ∀ v, s.control ≠ .complete v) :
    s.shadow.control ≠ .complete := by
  obtain ⟨stack, control⟩ := s
  cases control with
  | scalar scalar => exact shadow_ne_complete scalar
  | complete v => exact absurd rfl (h v)
  | _ =>
    intro hcontrol
    cases hcontrol

/-- The machine takes every byte that the reader takes; white space behind a value is no part of
it. -/
theorem step_shadowed {s u : State} (hs : ∀ v, s.control ≠ .complete v) {b : UInt8}
    (h : step s b = .ok u) :
    Skip.step s.shadow b = Skip.settle (.ok u.shadow) ∨
      Skip.step s.shadow b = .before () ∧ isSpace b = true ∧ ∃ v, u = completed v := by
  obtain ⟨stack, control⟩ := s
  cases control with
  | scalar scalar =>
    simp only [step] at h
    cases hscalar : scalar.step b with
    | more scalar' =>
      rw [hscalar] at h
      cases h
      left
      rw [Skip.settle]
      exact (scalar.shadow_of_more hscalar _).trans (if_neg (shadow_ne_complete scalar')).symm
    | done v =>
      rw [hscalar] at h
      cases h
      left
      rw [shadow_deliver]
      exact scalar.shadow_of_done hscalar _
    | before v =>
      rw [hscalar] at h
      have hfollow := scalar.shadow_of_before hscalar (stack.map Frame.bracket)
      cases stack with
      | nil =>
        right
        have hcompleted : step (completed v) b = .ok u := h
        obtain ⟨hb, hu⟩ := isSpace_of_step_complete rfl hcompleted
        exact ⟨hfollow, hb, v, hu⟩
      | cons frame stack =>
        left
        have hbetween := between_shadowed h
        rw [shadow_deliver] at hbetween
        refine hfollow.trans ?_
        rw [Skip.follow, hbetween]
        cases frame <;> rfl
    | halt halt =>
      rw [hscalar] at h
      cases h
  | key members t =>
    left
    simp only [step] at h
    obtain ⟨t', ht⟩ | ⟨halt, ht⟩ | ⟨key, ht, -⟩ := t.step_cases b
    · rw [ht] at h
      cases h
      exact StringText.key_of_more ht _
    · rw [ht] at h
      cases h
    · rw [ht] at h
      cases h
      exact StringText.key_of_done ht _
  | complete v => exact absurd rfl (hs v)
  | _ =>
    left
    rw [← between_shadowed h]
    rfl

end Reader

/-! ## The reader reads JSON -/

open WirelessArchive.Json.Language

/-- A scalar that may end here ends by the grammar. -/
theorem Scalar.resumes_of_finish {s : Scalar} {v : Json} (h : s.finish = .ok v) :
    Resumes ⟨[], s.shadow⟩ [] [] := by
  cases s with
  | literal owed w =>
    cases owed with
    | nil => exact ⟨[], rfl, .nil []⟩
    | cons c owed => cases h
  | numeral n =>
    have hcomplete : n.phase.isComplete = true := by
      rw [finish, Numeral.finish] at h
      split at h
      · assumption
      · cases h
    exact ⟨[], resumesNumber_of_isComplete hcomplete [], .nil []⟩
  | text t => cases h

namespace Reader

theorem ends_of_finish {s : State} {v : Json} (h : finish s = .ok v) : Ends s.shadow [] := by
  obtain ⟨stack, control⟩ := s
  cases control with
  | scalar scalar =>
    simp only [finish] at h
    split at h
    · next hfinish =>
      cases stack with
      | nil => exact ⟨[], scalar.resumes_of_finish hfinish, .nil []⟩
      | cons frame stack => cases frame <;> cases h
    · cases h
  | complete w => exact ⟨[], rfl, .nil []⟩
  | _ => cases h

theorem ends_of_space {s : State} {v : Json} (hs : s.control = .complete v) {b : UInt8}
    (hb : isSpace b = true) {text : List UInt8} (h : Ends s.shadow text) :
    Ends s.shadow (b :: text) := by
  obtain ⟨stack, control⟩ := s
  obtain rfl : control = .complete v := hs
  obtain ⟨r, rfl, hblanks⟩ := h
  exact ⟨b :: text, rfl, .cons (mem_of_isSpace hb) hblanks⟩

theorem ends_of_accepts {s : State} {text : List UInt8} {v : Json} (h : Accepts s text v) :
    Ends s.shadow text := by
  induction text generalizing s with
  | nil => exact ends_of_finish (accepts_nil_iff.1 h)
  | cons b text ih =>
    obtain ⟨u, hu, hrest⟩ := accepts_cons_iff.1 h
    have hends := ih hrest
    by_cases hs : ∃ w, s.control = .complete w
    · obtain ⟨w, hw⟩ := hs
      obtain ⟨hb, rfl⟩ := isSpace_of_step_complete hw hu
      exact ends_of_space hw hb hends
    · have hcontrol : ∀ w, s.control ≠ .complete w := fun w hw => hs ⟨w, hw⟩
      have hshadow := shadow_control_ne_complete hcontrol
      obtain hstep | ⟨hstep, hb, w, rfl⟩ := step_shadowed hcontrol hu
      · exact ends_of_settle hshadow hstep hends
      · obtain ⟨r, rfl, hblanks⟩ := hends
        exact ends_of_before hshadow hstep (.cons (mem_of_isSpace hb) hblanks)

end Reader

/-- The reader reads nothing but JSON. -/
theorem isText_of_read {text : List UInt8} {v : Json} (h : read text = .ok v) :
    Language.IsText text := by
  obtain ⟨r, ⟨u, w, hblanks, hvalue, hclose⟩, hrest⟩ :=
    Reader.ends_of_accepts (Reader.read_eq_ok_iff.1 h)
  cases hclose
  exact ⟨hblanks, hvalue, hrest⟩

end WirelessArchive.Json
