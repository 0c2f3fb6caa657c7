import WirelessArchive.Json.Typed
import WirelessArchive.Proofs.Json.Ending
import WirelessArchive.Proofs.Json.Grammar

/-!
# A typed reader agrees with the reader of any text

The reader of a text that is one scalar of a type (`Sole`) goes in step with the reader of any JSON
text.  While it runs, their states are related (`Related`).  Where it halts, the other one halts as
well, unless a container was opened or a value is complete that is not of the type (`Excuses`).  So
the typed reader gives what the value of a text is read as (`read_of_runTyped`), and it refuses a
text that the other one reads only for this value (`refused_of_runTyped`).
-/

namespace WirelessArchive.Json

open Reader

namespace Sole

variable {α : Type} {read : Json → Read α}

/-- The states of the two readers after the same bytes. -/
inductive Related (read : Json → Read α) : Sole α → State → Prop where
  | before : Related read .before start
  | within (s : Scalar) : Related read (.within s) ⟨[], .scalar s⟩
  | complete {v : Json} {a : α} : read v = .ok a → Related read (.complete a) (completed v)

/-- The typed reader may halt for this cause where the other one goes on to this state. -/
def Excuses (read : Json → Read α) (cause : TypedFault) (t : State) : Prop :=
  Opened t ∨ ∃ v mismatch, read v = .error mismatch ∧ cause = .type mismatch ∧ t = completed v

/-- What a step of the typed reader says about the same step of the other one. -/
def Matches (read : Json → Read α) (other : Except (Halt Fault) State) :
    Except (Halt TypedFault) (Sole α) → Prop
  | .ok s => ∃ t, other = .ok t ∧ Related read s t
  | .error halt => ∀ t, other = .ok t → Excuses read halt.cause t

/-! ## The first byte -/

theorem beginScalar_container (read : Json → Read α) {b : UInt8} (h : b = 0x5B ∨ b = 0x7B) :
    ∃ halt, beginScalar read b = .error halt := by
  obtain rfl | rfl := h
  · cases hv : read (.array []) with
    | ok a => exact ⟨_, by simp [beginScalar, hv, refuseText]; rfl⟩
    | error mismatch => exact ⟨_, by simp [beginScalar, hv]; rfl⟩
  · cases hv : read (.object []) with
    | ok a => exact ⟨_, by simp [beginScalar, hv, refuseText]; rfl⟩
    | error mismatch => exact ⟨_, by simp [beginScalar, hv]; rfl⟩

theorem matches_begin (read : Json → Read α) (b : UInt8) :
    Matches read (begin [] b) ((beginScalar read b).map within) := by
  by_cases hb : b = 0x5B ∨ b = 0x7B
  · obtain ⟨halt, hhalt⟩ := beginScalar_container read hb
    rw [hhalt]
    intro t ht
    obtain rfl | rfl := hb <;> cases ht
    · exact Or.inl (Or.inl (List.cons_ne_nil _ _))
    · exact Or.inl (Or.inl trivial)
  · rw [begin, if_neg hb]
    rw [not_or] at hb
    cases hstart : Scalar.start? b with
    | some s =>
      have hs : beginScalar read b = .ok s := by simp [beginScalar, hb, hstart]
      rw [hs]
      exact ⟨_, rfl, .within s⟩
    | none =>
      have hs : beginScalar read b = refuseText .expectedValue := by
        simp [beginScalar, hb, hstart]
      rw [hs]
      intro t ht
      cases ht

/-! ## A value is complete -/

theorem matches_behind {v : Json} {a : α} (h : read v = .ok a) (b : UInt8) :
    Matches read (if isSpace b then .ok (completed v) else refuse .trailingCharacters)
      (if isSpace b then .ok (complete a) else refuseText .trailingCharacters) := by
  split
  · exact ⟨_, rfl, .complete h⟩
  · exact fun t ht => by cases ht

/-- A value that is not of the type excuses the halt. -/
theorem excuses_of_read_eq_error {v : Json} {mismatch : Mismatch} (h : read v = .error mismatch) :
    Excuses read (.type mismatch) (completed v) :=
  Or.inr ⟨v, mismatch, h, rfl, rfl⟩

/-- In related states a step of the typed reader is matched by the same step of the other one. -/
theorem step_matched {s : Sole α} {t : State} (h : Related read s t) (b : UInt8) :
    Matches read (Reader.step t b) (step read s b) := by
  cases h with
  | before =>
    have hstep : Reader.step start b = if isSpace b then .ok start else begin [] b := rfl
    rw [hstep, step]
    split
    · exact ⟨start, rfl, .before⟩
    · exact matches_begin read b
  | within scalar =>
    simp only [Reader.step, step]
    cases scalar.step b with
    | more scalar' => exact ⟨_, rfl, .within scalar'⟩
    | done v =>
      cases hv : read v with
      | ok a =>
        simp only [hv, judge]
        exact ⟨_, rfl, .complete hv⟩
      | error mismatch =>
        simp only [hv, judge]
        intro t ht
        cases ht
        exact excuses_of_read_eq_error hv
    | before v =>
      -- the value was over before the byte, which both readers look at behind it
      cases hv : read v with
      | ok a =>
        simp only [hv, judge]
        exact matches_behind hv b
      | error mismatch =>
        simp only [hv, judge]
        intro t ht
        rw [show between (deliver v []) b = Reader.step (completed v) b from rfl,
          step_completed] at ht
        split at ht
        · cases ht
          exact excuses_of_read_eq_error hv
        · cases ht
    | halt h => exact fun t ht => by cases ht
  | complete ha => exact matches_behind ha b

/-! ## A whole text -/

theorem feed_related {s s' : Sole α} {t : State} (h : Related read s t) {text : List UInt8}
    (hs : feed (step read) s text = .ok s') :
    ∃ t', feed Reader.step t text = .ok t' ∧ Related read s' t' := by
  induction text generalizing s t with
  | nil =>
    cases hs
    exact ⟨t, rfl, h⟩
  | cons b text ih =>
    rw [feed] at hs
    split at hs
    · next u hu =>
      have hstep := step_matched h b
      rw [hu] at hstep
      obtain ⟨w, hw, huw⟩ := hstep
      rw [feed_cons hw]
      exact ih huw hs
    · cases hs

/-- What excuses a halt stays when more of the text is read. -/
theorem Excuses.feed {cause : TypedFault} {t t' : State} (h : Excuses read cause t)
    {text : List UInt8} (ht : feed Reader.step t text = .ok t') : Excuses read cause t' := by
  obtain h | ⟨v, mismatch, hv, hcause, rfl⟩ := h
  · exact Or.inl (feed_opened h ht)
  · exact Or.inr ⟨v, mismatch, hv, hcause, (feed_completed_iff.1 ht).2⟩

/-- Where the typed reader halts, what the other one reads to the end excuses it. -/
theorem feed_excused {s : Sole α} {t t' : State} (h : Related read s t) {text : List UInt8}
    {stop : Stop TypedFault} (hs : feed (step read) s text = .error stop)
    (ht : feed Reader.step t text = .ok t') : Excuses read stop.cause t' := by
  induction text generalizing s t with
  | nil => cases hs
  | cons b text ih =>
    have hstep := step_matched h b
    rw [Json.feed] at hs ht
    split at ht
    · next w hw =>
      split at hs
      · next u hu =>
        rw [hu] at hstep
        obtain ⟨w', hw', huw⟩ := hstep
        cases hw.symm.trans hw'
        exact ih huw hs ht
      · next halt hhalt =>
        -- the typed reader halts here, and the other one reads on
        cases hs
        rw [hhalt] at hstep
        exact (hstep w hw).feed ht
    · cases ht

theorem finish_related {s : Sole α} {t : State} (h : Related read s t) {a : α}
    (ha : finish read s = .ok a) : ∃ v, Reader.finish t = .ok v ∧ read v = .ok a := by
  cases h with
  | before => cases ha
  | within scalar =>
    rw [finish] at ha
    simp only [Reader.finish]
    split at ha
    · cases ha
    · next v hv =>
      rw [hv]
      refine ⟨v, rfl, ?_⟩
      split at ha
      · next b hb =>
        cases ha
        exact hb
      · cases ha
  | complete hread =>
    cases ha
    exact ⟨_, rfl, hread⟩

theorem finish_excused {s : Sole α} {t : State} (h : Related read s t) {fault : TypedFault}
    (hs : finish read s = .error fault) {v : Json} (hv : Reader.finish t = .ok v) :
    ∃ mismatch, read v = .error mismatch ∧ fault = .type mismatch := by
  cases h with
  | before => cases hv
  | within scalar =>
    rw [finish] at hs
    simp only [Reader.finish] at hv
    split at hv
    · next w hw =>
      cases hv
      rw [hw] at hs
      dsimp only at hs
      split at hs
      · cases hs
      · next mismatch hmismatch =>
        cases hs
        exact ⟨mismatch, hmismatch, rfl⟩
    · cases hv
  | complete hread => cases hs

/-- What the typed reader gives is what the value of the text is read as. -/
theorem read_of_runTyped {text : List UInt8} {a : α}
    (h : runTyped (step read) (finish read) .before text = .ok a) :
    ∃ v, Json.read text = .ok v ∧ read v = .ok a := by
  unfold runTyped at h
  split at h
  · cases h
  · next s hs =>
    split at h
    · next b hb =>
      cases h
      obtain ⟨t, ht, hst⟩ := feed_related .before hs
      obtain ⟨v, hv, hread⟩ := finish_related hst hb
      refine ⟨v, ?_, hread⟩
      simp only [Json.read, ht, hv]
    · cases h

/-- The typed reader refuses a text whose value is no container only for this value. -/
theorem refused_of_runTyped {text : List UInt8} {stop : Stop TypedFault} {v : Json}
    (h : runTyped (step read) (finish read) .before text = .error stop)
    (hv : Json.read text = .ok v) (hscalar : ¬v.IsContainer) :
    ∃ mismatch, read v = .error mismatch ∧ stop.cause = .type mismatch := by
  unfold Json.read at hv
  split at hv
  · cases hv
  · next t ht =>
    split at hv
    · next w hw =>
      cases hv
      unfold runTyped at h
      split at h
      · next stop' hstop =>
        cases h
        obtain hopened | ⟨u, mismatch, hu, hcause, rfl⟩ := feed_excused .before hstop ht
        · exact absurd (finish_opened hopened hw).1 hscalar
        · cases hw
          exact ⟨mismatch, hu, hcause⟩
      · next s hs =>
        split at h
        · cases h
        · next fault hfault =>
          cases h
          obtain ⟨t', ht', hst⟩ := feed_related .before hs
          cases ht.symm.trans ht'
          exact finish_excused hst hfault hw
    · cases hv

end Sole

/-! ## Link addresses -/

/-- A text gives a link address exactly if it holds a string that denotes this link address. -/
theorem readLink_eq_ok_iff {text : List UInt8} {l : LinkAddress} :
    readLink text = .ok l ↔ ∃ s, read text = .ok (.string s) ∧ LinkAddress.parse s = .ok l := by
  constructor
  · intro h
    obtain ⟨v, hv, hl⟩ := Sole.read_of_runTyped h
    obtain ⟨s, rfl, hs⟩ := (reads_link v l).1 hl
    exact ⟨s, hv, hs⟩
  · rintro ⟨s, htext, hs⟩
    have hl : asLink (.string s) = .ok l := (reads_link _ l).2 ⟨s, rfl, hs⟩
    cases h : readLink text with
    | ok l' =>
      obtain ⟨v, hv, hl'⟩ := Sole.read_of_runTyped h
      cases htext.symm.trans hv
      rw [Except.ok.inj (hl'.symm.trans hl)]
    | error stop =>
      obtain ⟨mismatch, hmismatch, -⟩ := Sole.refused_of_runTyped h htext (by rintro ⟨⟩)
      rw [hl] at hmismatch
      cases hmismatch

/-- A text that holds a string is refused for the error of the string. -/
theorem readLink_error {text : List UInt8} {s : String} {e : LinkAddress.ParseError}
    (htext : read text = .ok (.string s)) (he : LinkAddress.parse s = .error e) :
    ∃ unread, readLink text = .error ⟨.type (.badLink e), unread⟩ := by
  have hbad : asLink (.string s) = .error (.badLink e) := by rw [asLink, he]
  cases h : readLink text with
  | ok l =>
    obtain ⟨v, hv, hl⟩ := Sole.read_of_runTyped h
    cases htext.symm.trans hv
    rw [hbad] at hl
    cases hl
  | error stop =>
    obtain ⟨mismatch, hmismatch, hcause⟩ := Sole.refused_of_runTyped h htext (by rintro ⟨⟩)
    rw [hbad] at hmismatch
    cases hmismatch
    exact ⟨stop.unread, by rw [← hcause]⟩

end WirelessArchive.Json
