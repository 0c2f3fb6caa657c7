import WirelessArchive.Settings.Reader
import WirelessArchive.Proofs.Json.Passing
import WirelessArchive.Proofs.Json.Typed

/-!
# Settings are read from JSON

The reader of settings goes by the grammar, too: between the members it goes in step with the
machine that passes over a value (`step_shadowed`), and an unknown member is passed over by that
machine itself.  Whatever settings a text gives, the text is JSON (`isText_of_read`).
-/

namespace WirelessArchive.Settings

open Json
open Json.Language (Resumes Ends)
open Json.Reader (shadow_ne_complete)

namespace Reader

/-- The machine goes on to take a whole text, and gives settings. -/
abbrev Loads (s : State) (rest : List UInt8) (r : Settings) : Prop := Gives step finish s rest r

theorem read_eq_ok_iff {text : List UInt8} {r : Settings} :
    read text = .ok r ↔ Loads {} text r := by
  rw [read, runTyped, Loads, Gives]
  cases feed step {} text with
  | error stop => simp
  | ok s => cases hs : finish s <;> simp [hs]

/-! ## Shadows -/

/-- The kind of the container that a member stands in. -/
def Place.bracket : Place → Skip.Bracket
  | keyed => .object
  | listed _ => .list

/-- The state of the machine that passes over the settings. -/
def Control.shadow : Control → Skip.State
  | root => Skip.start
  | rootScalar s => ⟨[], s.shadow⟩
  | firstItem => ⟨[.list], .firstItem⟩
  | afterItem _ => ⟨[.list], .afterItem⟩
  | nextItem _ _ | surplus => ⟨[.list], .value⟩
  | firstKey => ⟨[.object], .firstKey⟩
  | nextKey => ⟨[.object], .nextKey⟩
  | key t => ⟨[.object], .key t.mode.shadow⟩
  | colon _ | duplicate _ => ⟨[.object], .colon⟩
  | value _ => ⟨[.object], .value⟩
  | scalar _ place s => ⟨[place.bracket], s.shadow⟩
  | passing k => ⟨k.stack ++ [.object], k.control⟩
  | afterMember => ⟨[.object], .afterMember⟩
  | complete => ⟨[], .complete⟩

/-- Where white space and marks are read. -/
def Control.IsStructural : Control → Prop
  | rootScalar _ | key _ | scalar .. | passing _ => False
  | _ => True

/-- Passing over a value has only just begun, if it has. -/
def Control.Fresh : Control → Prop
  | passing k => k = Skip.start
  | _ => True

theorem shadow_afterKey (s : State) (key : String) :
    (s.afterKey key).control.shadow = ⟨[.object], .colon⟩ ∧ (s.afterKey key).control.Fresh := by
  unfold State.afterKey
  split
  · exact ⟨rfl, trivial⟩
  · split
    · exact ⟨rfl, trivial⟩
    · exact ⟨rfl, trivial⟩

theorem shadow_afterValue (s : State) (m : Member) (place : Place) (settings : Settings) :
    (s.afterValue m place settings).control.shadow = Skip.deliver [place.bracket] ∧
      (s.afterValue m place settings).control.IsStructural ∧
      (s.afterValue m place settings).control.Fresh := by
  cases place with
  | keyed => exact ⟨rfl, trivial, trivial⟩
  | listed rest => exact ⟨rfl, trivial, trivial⟩

theorem accept_eq_ok {s u : State} {m : Member} {place : Place} {v : Json} {counted : Bool}
    (h : s.accept m place v counted = .ok u) :
    ∃ settings, s.settings.put m v = .ok settings ∧ u = s.afterValue m place settings := by
  rw [State.accept] at h
  cases hput : s.settings.put m v with
  | error mismatch =>
    rw [hput] at h
    cases h
  | ok settings =>
    rw [hput] at h
    cases h
    exact ⟨settings, rfl, rfl⟩

theorem begin_shadowed {α : Type} {readValue : Json → Read α} {b : UInt8} {scalar : Scalar}
    (h : beginScalar readValue b = .ok scalar) (stack : List Skip.Bracket) :
    Skip.begin stack b = .ok ⟨stack, scalar.shadow⟩ := by
  have hb : ¬(b = 0x5B ∨ b = 0x7B) := by
    intro hb
    obtain ⟨halt, hhalt⟩ := Sole.beginScalar_container readValue hb
    cases hhalt.symm.trans h
  rw [not_or] at hb
  simp only [beginScalar, hb, if_false] at h
  split at h
  · next hstart =>
    cases h
    exact Scalar.begin_of_start? hstart stack
  · cases h

theorem beginMember_shadowed {s u : State} {m : Member} {place : Place} {b : UInt8}
    (h : s.beginMember m place b = .ok u) :
    Skip.begin [place.bracket] b = .ok u.control.shadow ∧ u.control.Fresh := by
  rw [State.beginMember] at h
  cases hbegin : beginScalar (s.settings.put m) b with
  | error halt =>
    rw [hbegin] at h
    cases h
  | ok scalar =>
    rw [hbegin] at h
    cases h
    exact ⟨begin_shadowed hbegin _, trivial⟩

theorem beginRoot_shadowed {s u : State} {b : UInt8} (h : s.beginRoot b = .ok u) :
    Skip.begin [] b = .ok u.control.shadow ∧ u.control.Fresh := by
  rw [State.beginRoot] at h
  split at h
  · next hb =>
    cases h
    exact ⟨if_pos hb, trivial⟩
  · next hlist =>
    split at h
    · next hb =>
      cases h
      exact ⟨(if_neg hlist).trans (if_pos hb), trivial⟩
    · cases hbegin : beginScalar asSettings b with
      | error halt =>
        rw [hbegin] at h
        cases h
      | ok scalar =>
        rw [hbegin] at h
        cases h
        exact ⟨begin_shadowed hbegin _, trivial⟩

/-- Between values, keys and marks both machines take the same. -/
theorem between_shadowed {s u : State} (hs : s.control.IsStructural) {b : UInt8}
    (h : between s b = .ok u) :
    Skip.between s.control.shadow b = .ok u.control.shadow ∧ u.control.Fresh := by
  unfold between at h
  unfold Skip.between
  obtain ⟨settings, given, control⟩ := s
  split at h
  · next hb =>
    cases h
    refine ⟨if_pos hb, ?_⟩
    cases control <;> trivial
  · next hb =>
    rw [if_neg hb]
    cases control with
    | root => exact beginRoot_shadowed h
    | firstItem =>
      simp only at h
      split at h
      · next hbracket =>
        cases h
        exact ⟨if_pos hbracket, trivial⟩
      · next hbracket =>
        exact (beginMember_shadowed h).imp_left (if_neg hbracket).trans
    | afterItem rest =>
      cases rest with
      | nil =>
        simp only at h
        split at h
        · next hbracket =>
          cases h
          subst hbracket
          exact ⟨rfl, trivial⟩
        · split at h
          · next hcomma =>
            cases h
            exact ⟨if_pos hcomma, trivial⟩
          · cases h
      | cons m rest =>
        simp only at h
        split at h
        · next hbracket =>
          cases h
          subst hbracket
          exact ⟨rfl, trivial⟩
        · split at h
          · next hcomma =>
            cases h
            exact ⟨if_pos hcomma, trivial⟩
          · cases h
    | nextItem m rest =>
      simp only at h
      split at h
      · cases h
      · exact beginMember_shadowed h
    | surplus => cases h
    | firstKey =>
      simp only at h
      split at h
      · next hquote =>
        cases h
        exact ⟨if_pos hquote, trivial⟩
      · next hquote =>
        split at h
        · next hbrace =>
          cases h
          exact ⟨(if_neg hquote).trans (if_pos hbrace), trivial⟩
        · cases h
    | nextKey =>
      simp only at h
      split at h
      · next hquote =>
        cases h
        exact ⟨if_pos hquote, trivial⟩
      · split at h <;> cases h
    | colon m =>
      simp only at h
      split at h
      · next hcolon =>
        cases m with
        | none =>
          cases h
          exact ⟨if_pos hcolon, rfl⟩
        | some m =>
          cases h
          exact ⟨if_pos hcolon, trivial⟩
      · cases h
    | duplicate m => cases h
    | value m => exact beginMember_shadowed h
    | afterMember =>
      simp only at h
      split at h
      · next hcomma =>
        cases h
        exact ⟨if_pos hcomma, trivial⟩
      · next hcomma =>
        split at h
        · next hbrace =>
          cases h
          exact ⟨(if_neg hcomma).trans (if_pos hbrace), trivial⟩
        · cases h
    | complete => cases h
    | _ => cases hs

/-- A value that was over before the byte is judged first, and then the byte is looked at. -/
theorem between_of_accept {s u : State} {m : Member} {place : Place} {v : Json} {b : UInt8}
    (h : (do between (← s.accept m place v false) b) = .ok u) :
    ∃ settings, s.settings.put m v = .ok settings ∧
      between (s.afterValue m place settings) b = .ok u := by
  cases haccept : s.accept m place v false with
  | error halt =>
    rw [haccept] at h
    cases h
  | ok s' =>
    rw [haccept] at h
    obtain ⟨settings, hput, rfl⟩ := accept_eq_ok haccept
    exact ⟨settings, hput, h⟩

/-! ## Each step goes by the grammar -/

/-- The rest of the text goes on by the grammar.  A value that is passed over is followed by the
rest of the object. -/
def Covers (c : Control) (t : List UInt8) : Prop :=
  match c with
  | .passing k => k.control = .complete ∨ ∃ r, Resumes k t r ∧ Ends ⟨[.object], .afterMember⟩ r
  | c => Ends c.shadow t

theorem Covers.ends {c : Control} (hc : c.Fresh) {t : List UInt8} (h : Covers c t) :
    Ends c.shadow t := by
  cases c with
  | passing k =>
    obtain rfl : k = Skip.start := hc
    obtain hcomplete | ⟨r, ⟨u, v, hblanks, hvalue, hclose⟩, e, hrest, hend⟩ := h
    · cases hcomplete
    · cases hclose
      exact ⟨e, ⟨u, r, hblanks, hvalue, hrest⟩, hend⟩
  | _ => exact h

theorem ends_between {s u : State} (hs : s.control.IsStructural) {b : UInt8}
    (h : between s b = .ok u) {t : List UInt8} (ht : Covers u.control t) :
    Ends s.control.shadow (b :: t) := by
  obtain ⟨hbetween, hfresh⟩ := between_shadowed hs h
  obtain ⟨r, hr, hblanks⟩ := ht.ends hfresh
  obtain ⟨settings, given, control⟩ := s
  have hresumes : Language.IsBetween control.shadow.control →
      Ends control.shadow (b :: t) := fun hcontrol =>
    ⟨r, Language.resumes_between hcontrol hbetween hr, hblanks⟩
  cases control with
  | complete =>
    rw [between] at h
    split at h
    · next hb =>
      cases h
      obtain rfl : t = r := hr
      exact ⟨b :: t, rfl, .cons (Language.mem_of_isSpace hb) hblanks⟩
    · cases h
  | rootScalar scalar => cases hs
  | key text => cases hs
  | scalar m place scalar => cases hs
  | passing k => cases hs
  | _ => exact hresumes trivial

theorem step_eq_between {s : State} (hs : s.control.IsStructural) (b : UInt8) :
    step s b = between s b := by
  obtain ⟨settings, given, control⟩ := s
  cases control with
  | rootScalar scalar => cases hs
  | key text => cases hs
  | scalar m place scalar => cases hs
  | passing k => cases hs
  | _ => rfl

/-- Every byte that the reader of settings takes is as the grammar has it. -/
theorem covers_step {s u : State} {b : UInt8} (h : step s b = .ok u) {t : List UInt8}
    (ht : Covers u.control t) : Covers s.control (b :: t) := by
  have hbetween : s.control.IsStructural → Ends s.control.shadow (b :: t) := by
    intro hs
    rw [step_eq_between hs] at h
    exact ends_between hs h ht
  obtain ⟨settings, given, control⟩ := s
  cases control with
  | rootScalar scalar =>
    simp only [step] at h
    cases hscalar : scalar.step b with
    | more scalar' =>
      rw [hscalar] at h
      cases h
      exact Language.ends_of_more (shadow_ne_complete scalar) (scalar.shadow_of_more hscalar []) ht
    | done v =>
      rw [hscalar] at h
      cases h
    | before v =>
      rw [hscalar] at h
      cases h
    | halt halt =>
      rw [hscalar] at h
      cases h
  | key text =>
    simp only [step] at h
    obtain ⟨text', htext⟩ | ⟨halt, htext⟩ | ⟨key, htext, -⟩ := text.step_cases b
    · rw [htext] at h
      cases h
      exact Language.ends_of_more Skip.Control.noConfusion (StringText.key_of_more htext _) ht
    · rw [htext] at h
      cases h
    · rw [htext] at h
      cases h
      obtain ⟨hshadow, hfresh⟩ := shadow_afterKey ⟨settings, given, .key text⟩ key
      have hends := ht.ends hfresh
      rw [hshadow] at hends
      exact Language.ends_of_more Skip.Control.noConfusion (StringText.key_of_done htext _) hends
  | scalar m place scalar =>
    have hcontrol := shadow_ne_complete scalar
    simp only [step] at h
    cases hscalar : scalar.step b with
    | more scalar' =>
      rw [hscalar] at h
      cases h
      exact Language.ends_of_more hcontrol (scalar.shadow_of_more hscalar _) ht
    | done v =>
      rw [hscalar] at h
      obtain ⟨settings', -, rfl⟩ := accept_eq_ok h
      obtain ⟨hshadow, -, hfresh⟩ := shadow_afterValue _ m place settings'
      refine Language.ends_of_settle hcontrol (scalar.shadow_of_done hscalar _) ?_
      rw [← hshadow]
      exact ht.ends hfresh
    | before v =>
      rw [hscalar] at h
      obtain ⟨settings', -, h⟩ := between_of_accept h
      obtain ⟨hshadow, hstructural, -⟩ := shadow_afterValue _ m place settings'
      obtain ⟨hbetween, hfresh⟩ := between_shadowed hstructural h
      rw [hshadow] at hbetween
      refine Language.ends_of_settle hcontrol ?_ (ht.ends hfresh)
      refine (scalar.shadow_of_before hscalar _).trans ?_
      rw [Skip.follow, hbetween]
      cases place <;> rfl
    | halt halt =>
      rw [hscalar] at h
      cases h
  | passing k =>
    by_cases hk : k.control = .complete
    · exact Or.inl hk
    · right
      have hpays := Language.step_pays hk b
      simp only [step] at h
      cases hskip : Skip.step k b with
      | more k' =>
        rw [hskip] at h hpays
        cases h
        obtain ⟨r, hr, hends⟩ := ht.resolve_left hpays.1
        exact ⟨r, hpays.2 t r hr, hends⟩
      | done _ =>
        rw [hskip] at h hpays
        cases h
        exact ⟨t, hpays t, ht⟩
      | before _ =>
        rw [hskip] at h hpays
        have hstructural : (State.goto ⟨settings, given, .passing k⟩
          .afterMember).control.IsStructural := trivial
        -- the byte is left over by the value and read again in the object
        exact ⟨b :: t, hpays t, ends_between hstructural h ht⟩
      | halt halt =>
        rw [hskip] at h
        cases h
  | _ => exact hbetween trivial

theorem covers_of_finish {s : State} {r : Settings} (h : finish s = .ok r) :
    Covers s.control [] := by
  obtain ⟨settings, given, control⟩ := s
  cases control with
  | rootScalar scalar =>
    simp only [finish] at h
    split at h <;> cases h
  | scalar m place scalar =>
    simp only [finish] at h
    split at h
    · cases h
    · split at h
      · cases place <;> cases h
      · cases h
  | passing k =>
    simp only [finish] at h
    split at h <;> cases h
  | complete => exact ⟨[], rfl, .nil []⟩
  | _ => cases h

theorem covers_of_loads {s : State} {text : List UInt8} {r : Settings} (h : Loads s text r) :
    Covers s.control text := by
  induction text generalizing s with
  | nil => exact covers_of_finish (gives_nil_iff.1 h)
  | cons b text ih =>
    obtain ⟨u, hu, hrest⟩ := gives_cons_iff.1 h
    exact covers_step hu (ih hrest)

end Reader

/-- A text that gives settings is JSON. -/
theorem isText_of_read {text : List UInt8} {r : Settings} (h : read text = .ok r) :
    Language.IsText text := by
  obtain ⟨e, ⟨u, v, hblanks, hvalue, hclose⟩, hend⟩ :=
    Reader.covers_of_loads (Reader.read_eq_ok_iff.1 h)
  cases hclose
  exact ⟨hblanks, hvalue, hend⟩

end WirelessArchive.Settings
