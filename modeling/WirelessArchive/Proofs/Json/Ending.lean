import WirelessArchive.Proofs.Json.RoundTrip

/-!
# Where the text of an object ends

After the opening brace of a text the reader stands within a container (`Enclosed`) until the brace
that closes it, and from then on takes nothing but white space.  It therefore refuses the text
everywhere before the closing brace, and with anything but white space behind it: of two texts of
objects that are read, one of which starts the other, only white space separates the ends
(`isSpace_of_read_append`).
-/

namespace WirelessArchive.Json

/-- The value is an array or an object. -/
inductive IsContainer : Json → Prop where
  | array (items : List Json) : IsContainer (.array items)
  | object (members : List (String × Json)) : IsContainer (.object members)

namespace Reader

/-- A container is open around the place where the reader stands. -/
def Enclosed (s : State) : Prop :=
  match s.control with
  | .complete _ => False
  | .value | .firstItem | .nextItem | .scalar _ => s.stack ≠ []
  | _ => True

/-- The state in which the value of the text is complete. -/
def completed (v : Json) : State := ⟨[], .complete v⟩

theorem enclosed_deliver (v : Json) {stack : List Frame} (h : stack ≠ []) :
    Enclosed (deliver v stack) := by
  cases stack with
  | nil => exact absurd rfl h
  | cons frame stack => cases frame <;> trivial

/-- A container was opened, and it is open still or is the value of the text. -/
def Opened (s : State) : Prop := Enclosed s ∨ ∃ v, v.IsContainer ∧ s = completed v

theorem opened_deliver {v : Json} (hv : v.IsContainer) (stack : List Frame) :
    Opened (deliver v stack) := by
  by_cases h : stack = []
  · subst h
    exact Or.inr ⟨v, hv, rfl⟩
  · exact Or.inl (enclosed_deliver v h)

theorem enclosed_begin {stack : List Frame} (h : stack ≠ []) {b : UInt8} {s : State}
    (hs : begin stack b = .ok s) : Enclosed s := by
  unfold begin at hs
  split at hs
  · split at hs
    · split at hs
      · cases hs
        exact List.cons_ne_nil _ _
      · cases hs
        trivial
    · cases hs
  · split at hs
    · cases hs
      exact h
    · cases hs

theorem between_opened {s t : State} (h : Enclosed s) {b : UInt8} (ht : between s b = .ok t) :
    Opened t := by
  obtain ⟨stack, control⟩ := s
  have hdeliver : ∀ {v}, v.IsContainer → ∀ stack, deliver v stack = t → Opened t := by
    rintro v hv stack rfl
    exact opened_deliver hv stack
  unfold between at ht
  split at ht
  · cases ht
    exact Or.inl h
  · cases control with
    | value => exact Or.inl (enclosed_begin h ht)
    | firstItem =>
      simp only at ht
      split at ht
      · exact hdeliver (.array _) _ (Except.ok.inj ht)
      · exact Or.inl (enclosed_begin h ht)
    | afterItem items =>
      simp only at ht
      split at ht
      · cases ht
        exact Or.inl (List.cons_ne_nil _ _)
      · split at ht
        · exact hdeliver (.array _) _ (Except.ok.inj ht)
        · cases ht
    | nextItem =>
      simp only at ht
      split at ht
      · cases ht
      · exact Or.inl (enclosed_begin h ht)
    | firstKey =>
      simp only at ht
      split at ht
      · cases ht
        exact Or.inl trivial
      · split at ht
        · exact hdeliver (.object _) _ (Except.ok.inj ht)
        · cases ht
    | key members text =>
      cases ht
      exact Or.inl trivial
    | colon members key =>
      simp only at ht
      split at ht
      · cases ht
        exact Or.inl (List.cons_ne_nil _ _)
      · cases ht
    | afterMember members =>
      simp only at ht
      split at ht
      · cases ht
        exact Or.inl trivial
      · split at ht
        · exact hdeliver (.object _) _ (Except.ok.inj ht)
        · cases ht
    | nextKey members =>
      simp only at ht
      split at ht
      · cases ht
        exact Or.inl trivial
      · split at ht <;> cases ht
    | scalar s =>
      cases ht
      exact Or.inl h
    | complete v => cases h

/-- Within a container a byte leads to a place within a container, or closes the last one. -/
theorem step_opened {s t : State} (h : Enclosed s) {b : UInt8} (ht : step s b = .ok t) :
    Opened t := by
  obtain ⟨stack, control⟩ := s
  cases control with
  | scalar scalar =>
    simp only [step] at ht
    split at ht
    · cases ht
      exact Or.inl h
    · cases ht
      exact Or.inl (enclosed_deliver _ h)
    · exact between_opened (enclosed_deliver _ h) ht
    · cases ht
  | key members text =>
    simp only [step] at ht
    split at ht
    · cases ht
      exact Or.inl trivial
    · cases ht
      exact Or.inl trivial
    · exact between_opened (s := ⟨stack, .colon members _⟩) trivial ht
    · cases ht
  | _ => exact between_opened h ht

/-- No text ends within a container. -/
theorem finish_enclosed {s : State} (h : Enclosed s) (v : Json) : finish s ≠ .ok v := by
  intro hv
  obtain ⟨stack, control⟩ := s
  cases control with
  | scalar scalar =>
    simp only [finish] at hv
    cases hscalar : scalar.finish with
    | error fault =>
      rw [hscalar] at hv
      cases hv
    | ok value =>
      rw [hscalar] at hv
      cases stack with
      | nil => exact h rfl
      | cons frame stack => cases frame <;> cases hv
  | complete value => cases h
  | _ => cases hv

theorem step_completed (v : Json) (b : UInt8) :
    step (completed v) b =
      if isSpace b then .ok (completed v) else refuse .trailingCharacters := rfl

/-- A byte that is taken behind a complete value is white space and changes nothing. -/
theorem isSpace_of_step_complete {s t : State} {v : Json} (hs : s.control = .complete v)
    {b : UInt8} (h : step s b = .ok t) : isSpace b = true ∧ t = s := by
  obtain ⟨stack, control⟩ := s
  obtain rfl : control = .complete v := hs
  have hbehind : (if isSpace b then .ok ⟨stack, .complete v⟩ else refuse .trailingCharacters) =
    .ok t := h
  split at hbehind
  · next hb =>
    cases hbehind
    exact ⟨hb, rfl⟩
  · cases hbehind

/-- Behind a complete value there is only white space. -/
theorem feed_completed_iff {v : Json} {w : List UInt8} {t : State} :
    feed step (completed v) w = .ok t ↔ (∀ b ∈ w, isSpace b = true) ∧ t = completed v := by
  induction w with
  | nil =>
    refine ⟨fun h => ⟨nofun, (Except.ok.inj h).symm⟩, ?_⟩
    rintro ⟨-, rfl⟩
    rfl
  | cons b w ih =>
    rw [feed, step_completed]
    by_cases hb : isSpace b = true
    · simp [hb, ih]
    · simp [hb, refuse]

theorem feed_opened {s t : State} (h : Opened s) {text : List UInt8}
    (ht : feed step s text = .ok t) : Opened t := by
  induction text generalizing s with
  | nil =>
    cases ht
    exact h
  | cons b text ih =>
    obtain h | ⟨v, hv, rfl⟩ := h
    · rw [feed] at ht
      split at ht
      · next u hu => exact ih (step_opened h hu) ht
      · cases ht
    · exact Or.inr ⟨v, hv, (feed_completed_iff.1 ht).2⟩

/-- If a container was opened, the value of the text is a container. -/
theorem finish_opened {s : State} (h : Opened s) {v : Json} (hv : finish s = .ok v) :
    v.IsContainer ∧ s = completed v := by
  obtain h | ⟨w, hw, rfl⟩ := h
  · exact absurd hv (finish_enclosed h v)
  · cases hv
    exact ⟨hw, rfl⟩

theorem step_brace : step start 0x7B = .ok ⟨[], .firstKey⟩ := rfl

/-- A text that starts with a brace is read once this brace is closed. -/
theorem read_brace_iff {text : List UInt8} {v : Json} :
    read (0x7B :: text) = .ok v ↔ feed step start (0x7B :: text) = .ok (completed v) := by
  rw [read, feed_cons step_brace]
  constructor
  · intro h
    split at h
    · cases h
    · next s hs =>
      split at h
      · next value hvalue =>
        cases h
        have hfirst : Opened ⟨[], .firstKey⟩ := Or.inl trivial
        rw [← (finish_opened (feed_opened hfirst hs) hvalue).2]
        exact hs
      · cases h
  · intro h
    rw [h]
    rfl

end Reader

open Reader

/-- White space behind the text of an object changes nothing. -/
theorem read_append_space {text w : List UInt8} {v : Json} (h : read (0x7B :: text) = .ok v)
    (hw : ∀ b ∈ w, isSpace b = true) : read (0x7B :: text ++ w) = .ok v := by
  rw [List.cons_append, read_brace_iff, ← List.cons_append,
    feed_append step w (read_brace_iff.1 h)]
  exact feed_completed_iff.2 ⟨hw, rfl⟩

/-- If the text of an object starts another text that is read, only white space follows. -/
theorem isSpace_of_read_append {text w : List UInt8} {u v : Json}
    (h : read (0x7B :: text) = .ok u) (hv : read (0x7B :: text ++ w) = .ok v) :
    ∀ b ∈ w, isSpace b = true := by
  rw [List.cons_append, read_brace_iff, ← List.cons_append,
    feed_append step w (read_brace_iff.1 h)] at hv
  exact (feed_completed_iff.1 hv).1

theorem print_object (layout : Layout) (members : List (String × Json)) :
    ∃ middle, print layout (.object members) = 0x7B :: (middle ++ [0x7D]) := by
  cases members with
  | nil => exact ⟨[], rfl⟩
  | cons m members => exact ⟨_, by rw [print, Printer.value]⟩

end WirelessArchive.Json
