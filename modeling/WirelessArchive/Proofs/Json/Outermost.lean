import WirelessArchive.Proofs.Json.Ending
import WirelessArchive.Proofs.Json.Steps

/-!
# What has been read of the outermost container

Reading a value within a container goes as if the value were the whole text (`step_under`), until it
is complete and is delivered into the container.  What has been read of the outermost container
(`Holds`) only grows, so the value of the text starts with it (`extends_of_accepts`), and the value
of a member that is being read will stand in it (`accepts_under`).
-/

namespace WirelessArchive.Json

/-- The first value is a container that the second one starts with. -/
inductive Extends : Json → Json → Prop where
  | array {items items' : List Json} : items <+: items' → Extends (.array items) (.array items')
  | object {members members' : List (String × Json)} : members <+: members' →
    Extends (.object members) (.object members')

theorem Extends.refl {v : Json} (h : v.IsContainer) : Extends v v := by
  cases h with
  | array items => exact .array (List.prefix_refl items)
  | object members => exact .object (List.prefix_refl members)

theorem Extends.trans {v w u : Json} (h : Extends v w) (h' : Extends w u) : Extends v u := by
  cases h with
  | array h =>
    cases h' with
    | array h' => exact .array (h.trans h')
  | object h =>
    cases h' with
    | object h' => exact .object (h.trans h')

/-! ## Scalars are no containers -/

namespace Scalar

/-- A literal stands for no container. -/
def IsPlain : Scalar → Prop
  | literal _ v => ¬v.IsContainer
  | _ => True

theorem isPlain_of_start? {b : UInt8} {s : Scalar} (h : start? b = some s) : s.IsPlain := by
  have hscalar : ∀ {v : Json}, v = .null ∨ (∃ x, v = .bool x) → ¬v.IsContainer := by
    rintro v (rfl | ⟨x, rfl⟩) hv <;> cases hv
  unfold start? at h
  split_ifs at h
  · cases h
    trivial
  · cases h
    exact hscalar (Or.inl rfl)
  · cases h
    exact hscalar (Or.inr ⟨_, rfl⟩)
  · cases h
    exact hscalar (Or.inr ⟨_, rfl⟩)
  · obtain ⟨n, -, rfl⟩ := Option.map_eq_some_iff.1 h
    trivial

variable {s s' : Scalar} {b : UInt8} {v : Json}

theorem isPlain_of_more (hs : s.IsPlain) (h : s.step b = .more s') : s'.IsPlain := by
  cases step_eq_more h with
  | literal => exact hs
  | numeral => trivial
  | text => trivial

theorem not_isContainer_of_done (hs : s.IsPlain) (h : s.step b = .done v) : ¬v.IsContainer := by
  cases step_eq_done h with
  | literal => exact hs
  | text =>
    intro hv
    cases hv

theorem not_isContainer_of_before (hs : s.IsPlain) (h : s.step b = .before v) :
    ¬v.IsContainer := by
  cases step_eq_before h with
  | literal => exact hs
  | numeral =>
    intro hv
    cases hv

theorem not_isContainer_of_finish (hs : s.IsPlain) (h : s.finish = .ok v) : ¬v.IsContainer := by
  cases s with
  | literal owed w =>
    cases owed with
    | nil =>
      cases h
      exact hs
    | cons c owed => cases h
  | numeral n =>
    intro hv
    rw [finish] at h
    cases hn : n.finish with
    | error fault =>
      rw [hn] at h
      cases h
    | ok k =>
      rw [hn] at h
      cases h
      cases hv
  | text t => cases h

end Scalar

namespace Reader

theorem eq_of_accepts_completed {v w : Json} {rest : List UInt8}
    (h : Accepts (completed v) rest w) : w = v := by
  obtain ⟨t, ht, hw⟩ := h
  rw [(feed_completed_iff.1 ht).2] at hw
  exact (Except.ok.inj hw).symm

/-- A text that starts with a scalar holds no container. -/
theorem not_isContainer_of_accepts {s : Scalar} (hs : s.IsPlain) {rest : List UInt8} {v : Json}
    (h : Accepts ⟨[], .scalar s⟩ rest v) : ¬v.IsContainer := by
  induction rest generalizing s with
  | nil =>
    have hfinish := accepts_nil_iff.1 h
    simp only [finish] at hfinish
    split at hfinish
    · next w hw =>
      cases hfinish
      exact Scalar.not_isContainer_of_finish hs hw
    · cases hfinish
  | cons b rest ih =>
    obtain ⟨t, ht, hrest⟩ := accepts_cons_iff.1 h
    simp only [step] at ht
    cases hstep : s.step b with
    | more s' =>
      rw [hstep] at ht
      cases ht
      exact ih (Scalar.isPlain_of_more hs hstep) hrest
    | done w =>
      rw [hstep] at ht
      cases ht
      rw [eq_of_accepts_completed hrest]
      exact Scalar.not_isContainer_of_done hs hstep
    | before w =>
      rw [hstep] at ht
      have hbehind : Accepts (completed w) (b :: rest) v := accepts_cons_iff.2 ⟨t, ht, hrest⟩
      rw [eq_of_accepts_completed hbehind]
      exact Scalar.not_isContainer_of_before hs hstep
    | halt halt =>
      rw [hstep] at ht
      cases ht

/-! ## A value within a container -/

/-- The state with one more container around it.  A complete value is delivered into it. -/
def State.under (s : State) (frame : Frame) : State :=
  match s.control with
  | .complete v => deliver v (s.stack ++ [frame])
  | control => ⟨s.stack ++ [frame], control⟩

/-- A value that is not complete is being read as the value of the text. -/
inductive Within : State → Prop where
  | start : Within start
  | scalar (s : Scalar) : Within ⟨[], .scalar s⟩
  | enclosed {s : State} : Enclosed s → Within s

theorem Within.enclosed_under {s : State} (h : Within s) (frame : Frame) :
    Enclosed (s.under frame) := by
  cases h with
  | start => exact List.cons_ne_nil _ _
  | scalar => exact List.cons_ne_nil _ _
  | enclosed h =>
    obtain ⟨stack, control⟩ := s
    cases control with
    | complete v => cases h
    | value => exact List.append_ne_nil_of_right_ne_nil _ (List.cons_ne_nil _ _)
    | firstItem => exact List.append_ne_nil_of_right_ne_nil _ (List.cons_ne_nil _ _)
    | nextItem => exact List.append_ne_nil_of_right_ne_nil _ (List.cons_ne_nil _ _)
    | scalar => exact List.append_ne_nil_of_right_ne_nil _ (List.cons_ne_nil _ _)
    | _ => trivial

theorem Within.ne_complete {s : State} (h : Within s) (v : Json) : s.control ≠ .complete v := by
  intro hv
  cases h with
  | start => cases hv
  | scalar => cases hv
  | enclosed h =>
    obtain ⟨stack, control⟩ := s
    obtain rfl : control = .complete v := hv
    cases h

theorem within_begin {stack : List Frame} {b : UInt8} {s : State} (h : begin stack b = .ok s) :
    Within s := by
  by_cases hstack : stack = []
  · subst hstack
    unfold begin at h
    split at h
    · split at h
      · split at h
        · cases h
          exact .enclosed (List.cons_ne_nil _ _)
        · cases h
          exact .enclosed trivial
      · cases h
    · split at h
      · cases h
        exact .scalar _
      · cases h
  · exact .enclosed (enclosed_begin hstack h)

/-- A byte leads on within the value, or completes it. -/
theorem step_within {s t : State} (h : Within s) {b : UInt8} (ht : step s b = .ok t) :
    Within t ∨ ∃ v, t = completed v := by
  cases h with
  | start =>
    have hbegin : (if isSpace b then .ok start else begin [] b) = .ok t := ht
    split at hbegin
    · cases hbegin
      exact Or.inl .start
    · exact Or.inl (within_begin hbegin)
  | scalar s =>
    simp only [step] at ht
    cases hstep : s.step b with
    | more s' =>
      rw [hstep] at ht
      cases ht
      exact Or.inl (.scalar s')
    | done v =>
      rw [hstep] at ht
      cases ht
      exact Or.inr ⟨v, rfl⟩
    | before v =>
      rw [hstep] at ht
      have hcompleted : step (completed v) b = .ok t := ht
      exact Or.inr ⟨v, (isSpace_of_step_complete rfl hcompleted).2⟩
    | halt halt =>
      rw [hstep] at ht
      cases ht
  | enclosed h =>
    obtain h | ⟨v, -, rfl⟩ := step_opened h ht
    · exact Or.inl (.enclosed h)
    · exact Or.inr ⟨v, rfl⟩

theorem deliver_under (v : Json) (stack : List Frame) (frame : Frame) :
    deliver v (stack ++ [frame]) = (deliver v stack).under frame := by
  cases stack with
  | nil => rfl
  | cons inner stack => cases inner <;> rfl

theorem begin_under {stack : List Frame} {frame : Frame} {b : UInt8} {t : State}
    (h : begin (stack ++ [frame]) b = .ok t) :
    ∃ u, begin stack b = .ok u ∧ t = u.under frame := by
  unfold begin at h ⊢
  split at h
  · next hb =>
    rw [if_pos hb]
    split at h
    · next hdepth =>
      rw [List.length_append] at hdepth
      rw [if_pos (Nat.lt_of_le_of_lt (Nat.le_add_right _ _) hdepth)]
      split at h
      · next hlist =>
        cases h
        exact ⟨_, if_pos hlist, rfl⟩
      · next hlist =>
        cases h
        exact ⟨_, if_neg hlist, rfl⟩
    · cases h
  · next hb =>
    rw [if_neg hb]
    split at h
    · next s _ =>
      cases h
      exact ⟨⟨stack, .scalar s⟩, rfl, rfl⟩
    · cases h

theorem between_under {s t : State} (hs : Within s) {frame : Frame} {b : UInt8}
    (h : between (s.under frame) b = .ok t) :
    ∃ u, between s b = .ok u ∧ t = u.under frame := by
  obtain ⟨stack, control⟩ := s
  have hdeliver : ∀ {v stack}, deliver v (stack ++ [frame]) = t →
      ∃ u, (Except.ok (deliver v stack) : Except (Halt Fault) State) = .ok u ∧
        t = u.under frame := by
    rintro v stack rfl
    exact ⟨_, rfl, deliver_under v stack frame⟩
  by_cases hb : isSpace b = true
  · rw [between_space _ hb] at h
    exact ⟨_, between_space _ hb, (Except.ok.inj h).symm⟩
  · unfold between at h ⊢
    rw [if_neg hb] at h ⊢
    cases control with
    | value => exact begin_under h
    | firstItem =>
      simp only [State.under] at h ⊢
      split at h
      · next hbracket =>
        have hstack : stack ≠ [] := by
          cases hs with
          | enclosed hs => exact hs
        rw [List.tail_append_of_ne_nil hstack] at h
        rw [if_pos hbracket]
        exact hdeliver (Except.ok.inj h)
      · next hbracket =>
        rw [if_neg hbracket]
        exact begin_under h
    | afterItem items =>
      simp only [State.under] at h ⊢
      split at h
      · next hcomma =>
        cases h
        exact ⟨_, if_pos hcomma, rfl⟩
      · next hcomma =>
        rw [if_neg hcomma]
        split at h
        · next hbracket =>
          rw [if_pos hbracket]
          exact hdeliver (Except.ok.inj h)
        · cases h
    | nextItem =>
      simp only [State.under] at h ⊢
      split at h
      · cases h
      · next hbracket =>
        rw [if_neg hbracket]
        exact begin_under h
    | firstKey =>
      simp only [State.under] at h ⊢
      split at h
      · next hquote =>
        cases h
        exact ⟨_, if_pos hquote, rfl⟩
      · next hquote =>
        rw [if_neg hquote]
        split at h
        · next hbrace =>
          rw [if_pos hbrace]
          exact hdeliver (Except.ok.inj h)
        · cases h
    | key members text =>
      cases h
      exact ⟨_, rfl, rfl⟩
    | colon members key =>
      simp only [State.under] at h ⊢
      split at h
      · next hcolon =>
        cases h
        exact ⟨_, if_pos hcolon, rfl⟩
      · cases h
    | afterMember members =>
      simp only [State.under] at h ⊢
      split at h
      · next hcomma =>
        cases h
        exact ⟨_, if_pos hcomma, rfl⟩
      · next hcomma =>
        rw [if_neg hcomma]
        split at h
        · next hbrace =>
          rw [if_pos hbrace]
          exact hdeliver (Except.ok.inj h)
        · cases h
    | nextKey members =>
      simp only [State.under] at h ⊢
      split at h
      · next hquote =>
        cases h
        exact ⟨_, if_pos hquote, rfl⟩
      · split at h <;> cases h
    | scalar scalar =>
      cases h
      exact ⟨_, rfl, rfl⟩
    | complete v => exact absurd rfl (hs.ne_complete v)

/-- Within a container a value is read as if it were the whole text.  Only a scalar that was over
before the byte is followed by more of the container. -/
theorem step_under {s t : State} (hs : Within s) {frame : Frame} {b : UInt8}
    (h : step (s.under frame) b = .ok t) :
    (∃ u, step s b = .ok u ∧ t = u.under frame) ∨
      ∃ scalar v, s = ⟨[], .scalar scalar⟩ ∧ scalar.step b = .before v ∧
        between (deliver v [frame]) b = .ok t := by
  obtain ⟨stack, control⟩ := s
  cases control with
  | scalar scalar =>
    simp only [State.under, step] at h
    simp only [step]
    cases hstep : scalar.step b with
    | more scalar' =>
      rw [hstep] at h
      cases h
      exact Or.inl ⟨_, rfl, rfl⟩
    | done v =>
      rw [hstep] at h
      exact Or.inl ⟨_, rfl, (Except.ok.inj h).symm.trans (deliver_under v stack frame)⟩
    | before v =>
      rw [hstep] at h
      by_cases hstack : stack = []
      · subst hstack
        exact Or.inr ⟨scalar, v, rfl, hstep, h⟩
      · left
        have hbetween : between ((deliver v stack).under frame) b = .ok t := by
          rw [← deliver_under]
          exact h
        exact between_under (.enclosed (enclosed_deliver v hstack)) hbetween
    | halt halt =>
      rw [hstep] at h
      cases h
  | key members text =>
    left
    simp only [State.under, step] at h
    simp only [step]
    obtain ⟨text', ht⟩ | ⟨halt, ht⟩ | ⟨key, ht, -⟩ := text.step_cases b
    · rw [ht] at h ⊢
      cases h
      exact ⟨_, rfl, rfl⟩
    · rw [ht] at h
      cases h
    · rw [ht] at h ⊢
      cases h
      exact ⟨_, rfl, rfl⟩
  | complete v => exact absurd rfl (hs.ne_complete v)
  | _ => exact Or.inl (between_under hs h)

/-! ## The outermost container -/

/-- What has been read of the outermost container; an item or a member that is being read is not
part of it. -/
inductive Holds : State → Json → Prop where
  | firstItem : Holds ⟨[.item []], .firstItem⟩ (.array [])
  | item {s : State} (items : List Json) : Within s →
    Holds (s.under (.item items)) (.array items.reverse)
  | afterItem (items : List Json) : Holds ⟨[], .afterItem items⟩ (.array items.reverse)
  | nextItem (items : List Json) : Holds ⟨[.item items], .nextItem⟩ (.array items.reverse)
  | firstKey : Holds ⟨[], .firstKey⟩ (.object [])
  | key (members : List (String × Json)) (text : StringText) :
    Holds ⟨[], .key members text⟩ (.object members.reverse)
  | colon (members : List (String × Json)) (key : String) :
    Holds ⟨[], .colon members key⟩ (.object members.reverse)
  | member {s : State} (members : List (String × Json)) (key : String) : Within s →
    Holds (s.under (.member members key)) (.object members.reverse)
  | afterMember (members : List (String × Json)) :
    Holds ⟨[], .afterMember members⟩ (.object members.reverse)
  | nextKey (members : List (String × Json)) :
    Holds ⟨[], .nextKey members⟩ (.object members.reverse)
  | complete {v : Json} : v.IsContainer → Holds (completed v) v

theorem Holds.isContainer {s : State} {v : Json} (h : Holds s v) : v.IsContainer := by
  cases h with
  | firstItem => exact .array _
  | item => exact .array _
  | afterItem => exact .array _
  | nextItem => exact .array _
  | complete hv => exact hv
  | _ => exact .object _

theorem Holds.enclosed_or_completed {s : State} {v : Json} (h : Holds s v) :
    Enclosed s ∨ s = completed v := by
  cases h with
  | firstItem => exact Or.inl (List.cons_ne_nil _ _)
  | item items hs => exact Or.inl (hs.enclosed_under _)
  | nextItem => exact Or.inl (List.cons_ne_nil _ _)
  | member members key hs => exact Or.inl (hs.enclosed_under _)
  | complete => exact Or.inr rfl
  | _ => exact Or.inl trivial

/-- The reader stands in a container that holds at least this. -/
def HoldsMore (v : Json) (s : State) : Prop := ∃ w, Extends v w ∧ Holds s w

theorem Holds.more {s : State} {v : Json} (h : Holds s v) : HoldsMore v s :=
  ⟨v, .refl h.isContainer, h⟩

theorem holdsMore_item {items : List Json} {v : Json} {s : State}
    (h : HoldsMore (.array (v :: items).reverse) s) : HoldsMore (.array items.reverse) s := by
  obtain ⟨w, hw, hs⟩ := h
  refine ⟨w, Extends.trans (.array ?_) hw, hs⟩
  rw [List.reverse_cons]
  exact List.prefix_append _ _

theorem holdsMore_member {members : List (String × Json)} {m : String × Json} {s : State}
    (h : HoldsMore (.object (m :: members).reverse) s) :
    HoldsMore (.object members.reverse) s := by
  obtain ⟨w, hw, hs⟩ := h
  refine ⟨w, Extends.trans (.object ?_) hw, hs⟩
  rw [List.reverse_cons]
  exact List.prefix_append _ _

theorem between_afterItem {items : List Json} {b : UInt8} {t : State}
    (h : between ⟨[], .afterItem items⟩ b = .ok t) : HoldsMore (.array items.reverse) t := by
  unfold between at h
  split at h
  · cases h
    exact (Holds.afterItem items).more
  · simp only at h
    split at h
    · cases h
      exact (Holds.nextItem items).more
    · split at h
      · cases h
        exact (Holds.complete (.array _)).more
      · cases h

theorem between_afterMember {members : List (String × Json)} {b : UInt8} {t : State}
    (h : between ⟨[], .afterMember members⟩ b = .ok t) :
    HoldsMore (.object members.reverse) t := by
  unfold between at h
  split at h
  · cases h
    exact (Holds.afterMember members).more
  · simp only at h
    split at h
    · cases h
      exact (Holds.nextKey members).more
    · split at h
      · cases h
        exact (Holds.complete (.object _)).more
      · cases h

theorem between_firstKey {b : UInt8} {t : State} (h : between ⟨[], .firstKey⟩ b = .ok t) :
    HoldsMore (.object []) t := by
  unfold between at h
  split at h
  · cases h
    exact Holds.firstKey.more
  · simp only at h
    split at h
    · cases h
      exact (Holds.key [] {}).more
    · split at h
      · cases h
        exact (Holds.complete (.object _)).more
      · cases h

theorem between_nextKey {members : List (String × Json)} {b : UInt8} {t : State}
    (h : between ⟨[], .nextKey members⟩ b = .ok t) : HoldsMore (.object members.reverse) t := by
  unfold between at h
  split at h
  · cases h
    exact (Holds.nextKey members).more
  · simp only at h
    split at h
    · cases h
      exact (Holds.key members {}).more
    · split at h <;> cases h

theorem between_colon {members : List (String × Json)} {key : String} {b : UInt8} {t : State}
    (h : between ⟨[], .colon members key⟩ b = .ok t) :
    isSpace b = true ∧ t = ⟨[], .colon members key⟩ ∨
      b = 0x3A ∧ t = start.under (.member members key) := by
  unfold between at h
  split at h
  · next hb =>
    cases h
    exact Or.inl ⟨hb, rfl⟩
  · simp only at h
    split at h
    · next hcolon =>
      cases h
      exact Or.inr ⟨hcolon, rfl⟩
    · cases h

theorem between_firstItem {b : UInt8} {t : State}
    (h : between ⟨[.item []], .firstItem⟩ b = .ok t) : HoldsMore (.array []) t := by
  unfold between at h
  split at h
  · cases h
    exact Holds.firstItem.more
  · simp only at h
    split at h
    · cases h
      exact (Holds.complete (.array _)).more
    · obtain ⟨u, hu, rfl⟩ := @begin_under [] _ _ _ h
      exact (Holds.item [] (within_begin hu)).more

theorem between_nextItem {items : List Json} {b : UInt8} {t : State}
    (h : between ⟨[.item items], .nextItem⟩ b = .ok t) : HoldsMore (.array items.reverse) t := by
  unfold between at h
  split at h
  · cases h
    exact (Holds.nextItem items).more
  · simp only at h
    split at h
    · cases h
    · obtain ⟨u, hu, rfl⟩ := @begin_under [] _ _ _ h
      exact (Holds.item items (within_begin hu)).more

/-- No step takes anything from the outermost container. -/
theorem step_holds {s t : State} {v : Json} (h : Holds s v) {b : UInt8} (ht : step s b = .ok t) :
    HoldsMore v t := by
  cases h with
  | firstItem => exact between_firstItem ht
  | @item s items hs =>
    obtain ⟨u, hu, rfl⟩ | ⟨scalar, w, -, -, hbetween⟩ := step_under hs ht
    · obtain hu | ⟨w, rfl⟩ := step_within hs hu
      · exact (Holds.item items hu).more
      · exact holdsMore_item (Holds.afterItem (w :: items)).more
    · exact holdsMore_item (between_afterItem hbetween)
  | afterItem items => exact between_afterItem ht
  | nextItem items => exact between_nextItem ht
  | firstKey => exact between_firstKey ht
  | key members text =>
    simp only [step] at ht
    obtain ⟨text', htext⟩ | ⟨halt, htext⟩ | ⟨key, htext, -⟩ := text.step_cases b
    · rw [htext] at ht
      cases ht
      exact (Holds.key members text').more
    · rw [htext] at ht
      cases ht
    · rw [htext] at ht
      cases ht
      exact (Holds.colon members key).more
  | colon members key =>
    obtain ⟨-, rfl⟩ | ⟨-, rfl⟩ := between_colon ht
    · exact (Holds.colon members key).more
    · exact (Holds.member members key .start).more
  | @member s members key hs =>
    obtain ⟨u, hu, rfl⟩ | ⟨scalar, w, -, -, hbetween⟩ := step_under hs ht
    · obtain hu | ⟨w, rfl⟩ := step_within hs hu
      · exact (Holds.member members key hu).more
      · exact holdsMore_member (Holds.afterMember ((key, w) :: members)).more
    · exact holdsMore_member (between_afterMember hbetween)
  | afterMember members => exact between_afterMember ht
  | nextKey members => exact between_nextKey ht
  | complete hv =>
    obtain ⟨-, rfl⟩ := isSpace_of_step_complete rfl ht
    exact (Holds.complete hv).more

/-- The value of a text starts with what has been read of the outermost container. -/
theorem extends_of_accepts {s : State} {v w : Json} (h : Holds s v) {rest : List UInt8}
    (hw : Accepts s rest w) : Extends v w := by
  induction rest generalizing s v with
  | nil =>
    have hfinish := accepts_nil_iff.1 hw
    obtain hs | rfl := h.enclosed_or_completed
    · exact absurd hfinish (finish_enclosed hs w)
    · rw [← Except.ok.inj hfinish]
      exact .refl h.isContainer
  | cons b rest ih =>
    obtain ⟨t, ht, hrest⟩ := accepts_cons_iff.1 hw
    obtain ⟨u, hu, htu⟩ := step_holds h ht
    exact hu.trans (ih htu hrest)

/-- A value within a container is completed, and is a container if one was opened in it. -/
theorem accepts_under {s : State} (hs : Within s) {frame : Frame} {rest : List UInt8} {w : Json}
    (h : Accepts (s.under frame) rest w) :
    ∃ v rest', Accepts (deliver v [frame]) rest' w ∧ (Enclosed s → v.IsContainer) := by
  induction rest generalizing s with
  | nil => exact absurd (accepts_nil_iff.1 h) (finish_enclosed (hs.enclosed_under frame) w)
  | cons b rest ih =>
    obtain ⟨t, ht, hrest⟩ := accepts_cons_iff.1 h
    obtain ⟨u, hu, rfl⟩ | ⟨scalar, v, rfl, -, hbetween⟩ := step_under hs ht
    · obtain hwithin | ⟨v, rfl⟩ := step_within hs hu
      · obtain ⟨v, rest', hv, hcontainer⟩ := ih hwithin hrest
        refine ⟨v, rest', hv, fun henclosed => ?_⟩
        obtain hopen | ⟨x, -, rfl⟩ := step_opened henclosed hu
        · exact hcontainer hopen
        · exact absurd rfl (hwithin.ne_complete x)
      · exact ⟨v, rest, hrest, fun henclosed => (finish_opened (step_opened henclosed hu) rfl).1⟩
    · -- the byte behind a scalar is the first one behind the value
      refine ⟨v, b :: rest, accepts_cons_iff.2 ⟨t, ?_, hrest⟩, fun henclosed => ?_⟩
      · rw [isBetween_deliver, hbetween]
      · exact absurd rfl henclosed

/-- After its key a member is read. -/
theorem accepts_colon {members : List (String × Json)} {key : String} {rest : List UInt8}
    {w : Json} (h : Accepts ⟨[], .colon members key⟩ rest w) :
    ∃ v rest', Accepts ⟨[], .afterMember ((key, v) :: members)⟩ rest' w := by
  induction rest with
  | nil =>
    have hfinish := accepts_nil_iff.1 h
    cases hfinish
  | cons b rest ih =>
    obtain ⟨t, ht, hrest⟩ := accepts_cons_iff.1 h
    obtain ⟨-, rfl⟩ | ⟨-, rfl⟩ := between_colon ht
    · exact ih hrest
    · obtain ⟨v, rest', hv, -⟩ := accepts_under .start hrest
      exact ⟨v, rest', hv⟩

end Reader

end WirelessArchive.Json
