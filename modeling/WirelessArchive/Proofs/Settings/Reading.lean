import WirelessArchive.Proofs.Json.Outermost
import WirelessArchive.Proofs.Settings.Grammar
import WirelessArchive.Proofs.Settings.Language

/-!
# Settings are read exactly

The reader of settings goes in step with the reader of any text, as long as the settings that it has
gathered are those of the members read so far (`Related`).  It halts where the other one goes on
only at a member that occurs twice or has a wrong value, and no object with such a member gives
settings (`step_matched`).  So a text that holds an object gives exactly the settings that the
object gives (`read_object_iff`).
-/

namespace WirelessArchive.Settings

open Json
open Json.Reader (Accepts Within start completed)

namespace Reader

/-- The settings so far are those of the members so far, which are kept newest first. -/
structure Gathers (settings : Settings) (given : List Member) (members : List (String × Json)) :
    Prop where
  given_iff : ∀ m : Member, m ∈ given ↔ m.key ∈ members.map Prod.fst
  isSettings : IsSettings members.reverse settings

/-- The states of the two readers after the same bytes of an object. -/
inductive Related : State → Json.Reader.State → Prop where
  | root : Related {} start
  | firstKey : Related ⟨{}, [], .firstKey⟩ ⟨[], .firstKey⟩
  | nextKey {r : Settings} {given : List Member} {members : List (String × Json)} :
    Gathers r given members → Related ⟨r, given, .nextKey⟩ ⟨[], .nextKey members⟩
  | key {r : Settings} {given : List Member} {members : List (String × Json)}
    (text : StringText) :
    Gathers r given members → Related ⟨r, given, .key text⟩ ⟨[], .key members text⟩
  | unknownColon {r : Settings} {given : List Member} {members : List (String × Json)}
    {key : String} : Gathers r given members → (∀ m : Member, key ≠ m.key) →
    Related ⟨r, given, .colon none⟩ ⟨[], .colon members key⟩
  | colon {r : Settings} {given : List Member} {members : List (String × Json)} {m : Member} :
    Gathers r given members → m ∉ given →
    Related ⟨r, given, .colon (some m)⟩ ⟨[], .colon members m.key⟩
  | duplicate {r : Settings} {given : List Member} {members : List (String × Json)} {m : Member} :
    Gathers r given members → m ∈ given →
    Related ⟨r, given, .duplicate m⟩ ⟨[], .colon members m.key⟩
  | value {r : Settings} {given : List Member} {members : List (String × Json)} {m : Member} :
    Gathers r given members → m ∉ given →
    Related ⟨r, given, .value m⟩ ⟨[.member members m.key], .value⟩
  | scalar {r : Settings} {given : List Member} {members : List (String × Json)} {m : Member}
    (s : Scalar) : Gathers r given members → m ∉ given →
    Related ⟨r, given, .scalar m .keyed s⟩ ⟨[.member members m.key], .scalar s⟩
  | passing {r : Settings} {given : List Member} {members : List (String × Json)} {key : String}
    {u : Json.Reader.State} : Gathers r given members → (∀ m : Member, key ≠ m.key) → Within u →
    Related ⟨r, given, .passing u.shadow⟩ (u.under (.member members key))
  | afterMember {r : Settings} {given : List Member} {members : List (String × Json)} :
    Gathers r given members → Related ⟨r, given, .afterMember⟩ ⟨[], .afterMember members⟩
  | complete {r : Settings} {given : List Member} {members : List (String × Json)} :
    Gathers r given members →
    Related ⟨r, given, .complete⟩ (completed (.object members.reverse))

section

variable {r : Settings} {given : List Member} {members whole : List (String × Json)}

theorem gathers_nil : Gathers {} [] [] := ⟨fun m => by simp, isSettings_nil⟩

theorem Gathers.append_unknown (h : Gathers r given members) {key : String}
    (hkey : ∀ m : Member, key ≠ m.key) (v : Json) : Gathers r given ((key, v) :: members) := by
  constructor
  · intro m
    rw [h.given_iff m, List.map_cons, List.mem_cons]
    exact (or_iff_right (hkey m).symm).symm
  · rw [List.reverse_cons]
    exact h.isSettings.append_unknown hkey

theorem Gathers.append_put (h : Gathers r given members) {m : Member} (hm : m ∉ given)
    {v : Json} {r' : Settings} (hput : r.put m v = .ok r') :
    Gathers r' (m :: given) ((m.key, v) :: members) := by
  constructor
  · intro n
    rw [List.map_cons, List.mem_cons, List.mem_cons, h.given_iff n]
    exact or_congr_left ⟨congrArg Member.key, Member.key_injective⟩
  · rw [List.reverse_cons]
    refine h.isSettings.append_put ?_ hput
    rw [List.map_reverse, List.mem_reverse, ← h.given_iff]
    exact hm

/-- The step of the reader of settings where the other one goes on to a state from which an object
is read. -/
def Matches (whole : List (String × Json)) (t : Json.Reader.State) : Next → Prop
  | .ok s => Related s t
  | .error _ => ∀ r, ¬IsSettings whole r

/-! ## What spoils an object -/

theorem front_of_accepts {entry : String × Json} {rest : List UInt8}
    (hw : Accepts ⟨[], .afterMember (entry :: members)⟩ rest (.object whole)) :
    members.reverse ++ [entry] <+: whole := by
  rw [← List.reverse_cons]
  cases Json.Reader.extends_of_accepts (.afterMember _) hw with
  | object h => exact h

/-- A member whose value is refused is part of no object that gives settings. -/
theorem not_isSettings_of_put {m : Member} {v : Json} {mismatch : Mismatch}
    (hput : r.put m v = .error mismatch) {rest : List UInt8}
    (hw : Accepts ⟨[], .afterMember ((m.key, v) :: members)⟩ rest (.object whole))
    (s : Settings) : ¬IsSettings whole s := by
  intro hs
  obtain ⟨r', hr'⟩ := exists_put (hs.spells_of_mem (front_of_accepts hw)) r
  cases hput.symm.trans hr'

/-- Nor is a member that is a container. -/
theorem not_isSettings_of_container {m : Member} {u : Json.Reader.State}
    (hu : Json.Reader.Enclosed u) {rest : List UInt8}
    (hw : Accepts (u.under (.member members m.key)) rest (.object whole)) (s : Settings) :
    ¬IsSettings whole s := by
  intro hs
  obtain ⟨v, rest', hv, hcontainer⟩ := Json.Reader.accepts_under (.enclosed hu) hw
  exact not_spells_container (hcontainer hu) (hs.spells_of_mem (front_of_accepts hv))

/-- Nor is a member that has occurred before. -/
theorem Gathers.not_isSettings_of_twice (h : Gathers r given members) {m : Member}
    (hm : m ∈ given) {rest : List UInt8}
    (hw : Accepts ⟨[], .colon members m.key⟩ rest (.object whole)) (s : Settings) :
    ¬IsSettings whole s := by
  obtain ⟨v, rest', hv⟩ := Json.Reader.accepts_colon hw
  refine Settings.not_isSettings_of_twice ?_ (front_of_accepts hv)
  rw [List.map_reverse, List.mem_reverse, ← h.given_iff]
  exact hm

/-! ## Steps -/

variable {b : UInt8} {t : Json.Reader.State} {rest : List UInt8}

theorem Gathers.between_afterMember (h : Gathers r given members)
    (ht : Json.Reader.between ⟨[], .afterMember members⟩ b = .ok t) :
    Matches whole t (between ⟨r, given, .afterMember⟩ b) := by
  unfold Json.Reader.between at ht
  unfold between
  split at ht
  · next hb =>
    cases ht
    rw [if_pos hb]
    exact .afterMember h
  · next hb =>
    rw [if_neg hb]
    simp only at ht ⊢
    split at ht
    · next hcomma =>
      cases ht
      rw [if_pos hcomma]
      exact .nextKey h
    · next hcomma =>
      rw [if_neg hcomma]
      split at ht
      · next hbrace =>
        cases ht
        rw [if_pos hbrace]
        exact .complete h
      · cases ht

theorem Gathers.accept (h : Gathers r given members) {m : Member} (hm : m ∉ given) {v : Json}
    (hw : Accepts ⟨[], .afterMember ((m.key, v) :: members)⟩ rest (.object whole))
    (control : Control) (counted : Bool) :
    (∃ r', State.accept ⟨r, given, control⟩ m .keyed v counted =
        .ok ⟨r', m :: given, .afterMember⟩ ∧ Gathers r' (m :: given) ((m.key, v) :: members)) ∨
      (∃ halt, State.accept ⟨r, given, control⟩ m .keyed v counted = .error halt) ∧
        ∀ s, ¬IsSettings whole s := by
  unfold State.accept
  cases hput : r.put m v with
  | ok r' => exact Or.inl ⟨r', rfl, h.append_put hm hput⟩
  | error mismatch => exact Or.inr ⟨⟨_, rfl⟩, not_isSettings_of_put hput hw⟩

theorem Gathers.step_scalar (h : Gathers r given members) {m : Member} (hm : m ∉ given)
    {scalar : Scalar}
    (ht : Json.Reader.step ⟨[.member members m.key], .scalar scalar⟩ b = .ok t)
    (hw : Accepts t rest (.object whole)) :
    Matches whole t (step ⟨r, given, .scalar m .keyed scalar⟩ b) := by
  simp only [Json.Reader.step] at ht
  simp only [step]
  cases hscalar : scalar.step b with
  | more scalar' =>
    rw [hscalar] at ht
    cases ht
    exact .scalar scalar' h hm
  | done v =>
    rw [hscalar] at ht
    cases ht
    obtain ⟨r', haccept, hgathers⟩ | ⟨⟨halt, haccept⟩, hno⟩ :=
      h.accept hm hw (.scalar m .keyed scalar) true
    · simp only [haccept]
      exact .afterMember hgathers
    · simp only [haccept]
      exact hno
  | before v =>
    rw [hscalar] at ht
    have hbehind : Accepts ⟨[], .afterMember ((m.key, v) :: members)⟩ (b :: rest)
        (.object whole) := Json.Reader.accepts_cons_iff.2 ⟨t, ht, hw⟩
    obtain ⟨r', haccept, hgathers⟩ | ⟨⟨halt, haccept⟩, hno⟩ :=
      h.accept hm hbehind (.scalar m .keyed scalar) false
    · simp only [haccept]
      exact hgathers.between_afterMember ht
    · simp only [haccept]
      exact hno
  | halt halt =>
    rw [hscalar] at ht
    cases ht

/-- A value starts with a scalar, or a container is opened. -/
theorem begin_cases {α : Type} (readValue : Json → Read α) {u : Json.Reader.State}
    (hu : Json.Reader.begin [] b = .ok u) :
    (∃ scalar, beginScalar readValue b = .ok scalar ∧ u = ⟨[], .scalar scalar⟩ ∧
      scalar.IsPlain) ∨
      (b = 0x5B ∨ b = 0x7B) ∧ Json.Reader.Enclosed u := by
  by_cases hb : b = 0x5B ∨ b = 0x7B
  · refine Or.inr ⟨hb, ?_⟩
    obtain rfl | rfl := hb
    · cases hu
      exact List.cons_ne_nil _ _
    · cases hu
      trivial
  · left
    rw [Json.Reader.begin, if_neg hb] at hu
    rw [not_or] at hb
    split at hu
    · next scalar hstart =>
      cases hu
      exact ⟨scalar, by simp [beginScalar, hb, hstart], rfl, Scalar.isPlain_of_start? hstart⟩
    · cases hu

theorem Gathers.between_value (h : Gathers r given members) {m : Member} (hm : m ∉ given)
    (ht : Json.Reader.between ⟨[.member members m.key], .value⟩ b = .ok t)
    (hw : Accepts t rest (.object whole)) :
    Matches whole t (between ⟨r, given, .value m⟩ b) := by
  unfold Json.Reader.between at ht
  unfold between
  split at ht
  · next hb =>
    cases ht
    rw [if_pos hb]
    exact .value h hm
  · next hb =>
    rw [if_neg hb]
    simp only [State.beginMember]
    obtain ⟨u, hu, rfl⟩ := @Json.Reader.begin_under [] _ _ _ ht
    obtain ⟨scalar, hscalar, rfl, -⟩ | ⟨hcontainer, henclosed⟩ := begin_cases (r.put m) hu
    · rw [hscalar]
      exact .scalar scalar h hm
    · -- no member is a container, which is known at the bracket and not only at its end
      obtain ⟨halt, hhalt⟩ := Sole.beginScalar_container (r.put m) hcontainer
      rw [hhalt]
      exact not_isSettings_of_container henclosed hw

theorem Gathers.step_passing (h : Gathers r given members) {key : String}
    (hkey : ∀ m : Member, key ≠ m.key) {u : Json.Reader.State} (hu : Within u)
    (ht : Json.Reader.step (u.under (.member members key)) b = .ok t) :
    Matches whole t (step ⟨r, given, .passing u.shadow⟩ b) := by
  simp only [step]
  obtain ⟨u', hu', rfl⟩ | ⟨scalar, v, rfl, hscalar, hbetween⟩ := Json.Reader.step_under hu ht
  · obtain hskip | ⟨hskip, hb, v, rfl⟩ := Json.Reader.step_shadowed hu.ne_complete hu'
    · rw [hskip, Skip.settle]
      obtain hwithin | ⟨v, rfl⟩ := Json.Reader.step_within hu hu'
      · rw [if_neg (Json.Reader.shadow_control_ne_complete hwithin.ne_complete)]
        exact .passing h hkey hwithin
      · exact .afterMember (h.append_unknown hkey v)
    · -- a space ends a number, and the machine leaves it where the other reader has taken it
      rw [hskip]
      exact (h.append_unknown hkey v).between_afterMember (Json.Reader.between_space _ hb)
  · have hskip := scalar.shadow_of_before hscalar []
    simp only [Json.Reader.State.shadow, List.map_nil, hskip]
    exact (h.append_unknown hkey v).between_afterMember hbetween

theorem Gathers.afterKey (h : Gathers r given members) (control : Control) (key : String) :
    Related (State.afterKey ⟨r, given, control⟩ key) ⟨[], .colon members key⟩ := by
  unfold State.afterKey
  split
  · next hnone => exact .unknownColon h (Member.ofKey?_eq_none_iff.1 hnone)
  · next m hm =>
    obtain rfl := Member.ofKey?_eq_some_iff.1 hm
    split
    · next hgiven => exact .duplicate h hgiven
    · next hgiven => exact .colon h hgiven

theorem Gathers.step_key (h : Gathers r given members) {text : StringText}
    (ht : Json.Reader.step ⟨[], .key members text⟩ b = .ok t) :
    Matches whole t (step ⟨r, given, .key text⟩ b) := by
  simp only [Json.Reader.step] at ht
  simp only [step]
  obtain ⟨text', htext⟩ | ⟨halt, htext⟩ | ⟨key, htext, -⟩ := text.step_cases b
  · rw [htext] at ht ⊢
    cases ht
    exact .key text' h
  · rw [htext] at ht
    cases ht
  · rw [htext] at ht ⊢
    cases ht
    exact h.afterKey _ key

theorem between_space (s : State) (hb : isSpace b = true) : between s b = .ok s := if_pos hb

theorem between_root (ht : Json.Reader.between start b = .ok t)
    (hw : Accepts t rest (.object whole)) : Matches whole t (between {} b) := by
  by_cases hb : isSpace b = true
  · rw [Json.Reader.between_space _ hb] at ht
    cases ht
    rw [between_space _ hb]
    exact .root
  · unfold Json.Reader.between at ht
    unfold between
    rw [if_neg hb] at ht ⊢
    by_cases hlist : b = 0x5B
    · subst hlist
      cases ht
      cases Json.Reader.extends_of_accepts .firstItem hw
    · by_cases hobject : b = 0x7B
      · subst hobject
        cases ht
        exact .firstKey
      · obtain ⟨scalar, -, rfl, hplain⟩ | ⟨hcontainer, -⟩ := begin_cases asSettings ht
        · exact absurd (.object whole) (Json.Reader.not_isContainer_of_accepts hplain hw)
        · exact absurd hcontainer (not_or.2 ⟨hlist, hobject⟩)

theorem between_firstKey (ht : Json.Reader.between ⟨[], .firstKey⟩ b = .ok t) :
    Matches whole t (between ⟨{}, [], .firstKey⟩ b) := by
  unfold Json.Reader.between at ht
  unfold between
  split at ht
  · next hb =>
    cases ht
    rw [if_pos hb]
    exact .firstKey
  · next hb =>
    rw [if_neg hb]
    simp only at ht ⊢
    split at ht
    · next hquote =>
      cases ht
      rw [if_pos hquote]
      exact .key {} gathers_nil
    · next hquote =>
      rw [if_neg hquote]
      split at ht
      · next hbrace =>
        cases ht
        rw [if_pos hbrace]
        exact .complete gathers_nil
      · cases ht

theorem Gathers.between_nextKey (h : Gathers r given members)
    (ht : Json.Reader.between ⟨[], .nextKey members⟩ b = .ok t) :
    Matches whole t (between ⟨r, given, .nextKey⟩ b) := by
  unfold Json.Reader.between at ht
  unfold between
  split at ht
  · next hb =>
    cases ht
    rw [if_pos hb]
    exact .nextKey h
  · next hb =>
    rw [if_neg hb]
    simp only at ht ⊢
    split at ht
    · next hquote =>
      cases ht
      rw [if_pos hquote]
      exact .key {} h
    · split at ht <;> cases ht

/-- In related states, what the other reader takes on the way to an object is matched. -/
theorem step_matched {s : State} {t t' : Json.Reader.State} (h : Related s t)
    (ht : Json.Reader.step t b = .ok t') (hw : Accepts t' rest (.object whole)) :
    Matches whole t' (step s b) := by
  cases h with
  | root => exact between_root ht hw
  | firstKey => exact between_firstKey ht
  | nextKey h => exact h.between_nextKey ht
  | key text h => exact h.step_key ht
  | @unknownColon r given members key h hkey =>
    obtain ⟨hb, rfl⟩ | ⟨rfl, rfl⟩ := Json.Reader.between_colon ht
    · show Matches whole _ (between ⟨r, given, .colon none⟩ b)
      rw [between_space _ hb]
      exact .unknownColon h hkey
    · exact Related.passing h hkey .start
  | @colon r given members m h hm =>
    obtain ⟨hb, rfl⟩ | ⟨rfl, rfl⟩ := Json.Reader.between_colon ht
    · show Matches whole _ (between ⟨r, given, .colon (some m)⟩ b)
      rw [between_space _ hb]
      exact .colon h hm
    · exact Related.value h hm
  | @duplicate r given members m h hm =>
    obtain ⟨hb, rfl⟩ | ⟨rfl, rfl⟩ := Json.Reader.between_colon ht
    · show Matches whole _ (between ⟨r, given, .duplicate m⟩ b)
      rw [between_space _ hb]
      exact .duplicate h hm
    · exact h.not_isSettings_of_twice hm (Json.Reader.accepts_cons_iff.2 ⟨_, ht, hw⟩)
  | value h hm => exact h.between_value hm ht hw
  | scalar scalar h hm => exact h.step_scalar hm ht hw
  | passing h hkey hu => exact h.step_passing hkey hu ht
  | afterMember h => exact h.between_afterMember ht
  | @complete r given members h =>
    obtain ⟨hb, rfl⟩ := Json.Reader.isSpace_of_step_complete rfl ht
    show Matches whole _ (between ⟨r, given, .complete⟩ b)
    rw [between_space _ hb]
    exact .complete h

/-! ## Whole texts -/

theorem finish_related {s : State} {t : Json.Reader.State} (h : Related s t)
    (hw : Json.Reader.finish t = .ok (.object whole)) :
    ∃ r, finish s = .ok r ∧ IsSettings whole r := by
  cases h with
  | @scalar r given members m s =>
    have henclosed : Json.Reader.Enclosed ⟨[.member members m.key], .scalar s⟩ :=
      List.cons_ne_nil _ _
    exact absurd hw (Json.Reader.finish_enclosed henclosed _)
  | passing h hkey hu => exact absurd hw (Json.Reader.finish_enclosed (hu.enclosed_under _) _)
  | @complete r given members h =>
    cases hw
    exact ⟨r, rfl, h.isSettings⟩
  | _ => cases hw

/-- From related states on the way to an object, either both readers read to the end, or the object
gives no settings. -/
theorem loads_or_not {s : State} {t : Json.Reader.State} (h : Related s t)
    (hw : Accepts t rest (.object whole)) :
    (∃ r, Loads s rest r ∧ IsSettings whole r) ∨
      (∀ r, ¬Loads s rest r) ∧ ∀ r, ¬IsSettings whole r := by
  induction rest generalizing s t with
  | nil =>
    obtain ⟨r, hr, hsettings⟩ := finish_related h (Json.Reader.accepts_nil_iff.1 hw)
    exact Or.inl ⟨r, gives_nil_iff.2 hr, hsettings⟩
  | cons b rest ih =>
    obtain ⟨t', ht, hrest⟩ := Json.Reader.accepts_cons_iff.1 hw
    have hmatched := step_matched h ht hrest
    cases hs : step s b with
    | ok s' =>
      rw [hs] at hmatched
      obtain ⟨r, hr, hsettings⟩ | ⟨hloads, hno⟩ := ih hmatched hrest
      · exact Or.inl ⟨r, gives_cons_iff.2 ⟨s', hs, hr⟩, hsettings⟩
      · refine Or.inr ⟨fun r hr => ?_, hno⟩
        obtain ⟨u, hu, hr⟩ := gives_cons_iff.1 hr
        cases hs.symm.trans hu
        exact hloads r hr
    | error halt =>
      rw [hs] at hmatched
      refine Or.inr ⟨fun r hr => ?_, hmatched⟩
      obtain ⟨u, hu, -⟩ := gives_cons_iff.1 hr
      cases hs.symm.trans hu

end

end Reader

/-- A text that holds an object gives exactly the settings that the object gives. -/
theorem read_object_iff {text : List UInt8} {members : List (String × Json)}
    (htext : Json.read text = .ok (.object members)) {r : Settings} :
    read text = .ok r ↔ IsSettings members r := by
  rw [Reader.read_eq_ok_iff]
  obtain ⟨r', hr', hsettings⟩ | ⟨hloads, hno⟩ :=
    Reader.loads_or_not .root (Json.Reader.read_eq_ok_iff.1 htext)
  · constructor
    · intro hr
      rwa [hr.unique hr']
    · intro h
      rwa [h.unique hsettings]
  · exact ⟨fun h => absurd h (hloads r), fun h => absurd h (hno r)⟩

end WirelessArchive.Settings
