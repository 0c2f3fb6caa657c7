import WirelessArchive.Archive.Decode
import WirelessArchive.Proofs.Json.Agreement

/-!
# Records with other keys

The keys of a network are the passphrase and the contents of the filled slots.  Of a key, nothing
but its presence bears on whether a profile is valid or excluded, so `masked` profiles, whose keys
are blank, are judged as the profiles themselves.

The keys in a record may be replaced by others (`Rekeyed`).  The record is then read as one that
differs in keys alone, or it fails as before: a value that is no key, such as a number in the place
of one, is not replaced, and so the reason of the failure stays.
-/

namespace WirelessArchive

open Json (Agree Read)

/-! ## Profiles without their keys -/

/-- Leaves nothing of a key but its presence. -/
def maskedKey (key : Option String) : Option String := key.map fun _ => ""

namespace WepKeys

/-- The slots with the same ones filled, and blank keys. -/
def masked (k : WepKeys) : WepKeys :=
  ⟨maskedKey k.slot0, maskedKey k.slot1, maskedKey k.slot2, maskedKey k.slot3⟩

theorem toList_masked (k : WepKeys) : k.masked.toList = k.toList.map maskedKey := rfl

@[simp]
theorem anyFilled_masked (k : WepKeys) : k.masked.anyFilled = k.anyFilled := by
  have h : Option.isSome ∘ maskedKey = Option.isSome := funext fun _ => Option.isSome_map
  rw [anyFilled, toList_masked, List.any_map, h]
  rfl

theorem join_map_masked (x : Option (Option String)) :
    (x.map maskedKey).join = maskedKey x.join := by
  cases x <;> rfl

@[simp]
theorem isFilled_masked (k : WepKeys) (slot : Nat) : k.masked.isFilled slot = k.isFilled slot := by
  rw [isFilled, toList_masked, List.getElem?_map, join_map_masked]
  exact Option.isSome_map

theorem ofList_masked (keys : List (Option String)) :
    ofList (keys.map maskedKey) = (ofList keys).masked := by
  simp only [ofList, List.getElem?_map, join_map_masked]
  rfl

end WepKeys

namespace Profile

/-- The profile with blank keys. -/
def masked (p : Profile) : Profile :=
  { p with preSharedKey := maskedKey p.preSharedKey, wepKeys := p.wepKeys.masked }

@[simp]
theorem validate_masked (p : Profile) : p.masked.validate = p.validate := by
  simp [validate, masked]

@[simp]
theorem ssid_masked (p : Profile) : p.masked.ssid = p.ssid := rfl

@[simp]
theorem exclusion?_masked (p : Profile) : p.masked.exclusion? = p.exclusion? := rfl

end Profile

/-! ## Records without their keys -/

namespace Record

def masked (r : Record) : Record :=
  { r with
    preSharedKey := maskedKey r.preSharedKey
    wepKeys := r.wepKeys.map fun keys => keys.map maskedKey }

theorem wepKeySlots_masked (r : Record) :
    r.masked.wepKeySlots = r.wepKeySlots.map WepKeys.masked := by
  have hkeys : r.masked.wepKeys.getD [] = (r.wepKeys.getD []).map maskedKey := by
    show (r.wepKeys.map (List.map maskedKey)).getD [] = _
    cases r.wepKeys <;> rfl
  rw [wepKeySlots, wepKeySlots, hkeys, toWepKeys, toWepKeys, List.length_map,
    WepKeys.ofList_masked]
  show (if r.security = .wep then _ else _) = _
  split
  · split <;> rfl
  · rfl

theorem describes_masked (r : Record) (ipConfig : IpConfig) (wepKeys : WepKeys) :
    r.masked.describes ipConfig wepKeys.masked = (r.describes ipConfig wepKeys).masked := by
  have hkey : (r.masked.describes ipConfig wepKeys.masked).preSharedKey =
      maskedKey (r.describes ipConfig wepKeys).preSharedKey := by
    show (if r.security = .psk then maskedKey r.preSharedKey else none) =
      maskedKey (if r.security = .psk then r.preSharedKey else none)
    split <;> rfl
  rw [Profile.masked, ← hkey]
  rfl

theorem toProfile_masked (r : Record) : r.masked.toProfile = r.toProfile.map Profile.masked := by
  have hpolicy : r.masked.policy = r.policy := rfl
  rw [toProfile, toProfile, hpolicy, wepKeySlots_masked]
  cases r.policy with
  | error e => rfl
  | ok ipConfig =>
    cases r.wepKeySlots with
    | error e => rfl
    | ok wepKeys =>
      simp only [bind, Except.bind, Except.map, describes_masked, Profile.validate_masked]
      cases (r.describes ipConfig wepKeys).validate <;> rfl

/-- The records differ in their keys alone. -/
def SameMasked (r r' : Record) : Prop := r.masked = r'.masked

theorem SameMasked.refl (r : Record) : SameMasked r r := rfl

end Record

/-! ## Other keys -/

/-- A key may be replaced by another; a value that is no string stays. -/
inductive KeyReplaced : Json → Json → Prop where
  | same (v : Json) : KeyReplaced v v
  | string (key key' : String) : KeyReplaced (.string key) (.string key')

/-- The keys in a list may be replaced by others; a value that is no list stays. -/
abbrev KeysReplaced : Json → Json → Prop := Json.ItemsAlike KeyReplaced

theorem KeyReplaced.trans (v w u : Json) (h : KeyReplaced v w) (h' : KeyReplaced w u) :
    KeyReplaced v u := by
  cases h with
  | same => exact h'
  | string key =>
    cases h' with
    | same => exact .string _ _
    | string => exact .string _ _

theorem agree_of_keyReplaced {v v' : Json} (h : KeyReplaced v v') :
    Agree (fun key key' => maskedKey key = maskedKey key') (Json.asOption Json.asString v)
      (Json.asOption Json.asString v') := by
  cases h with
  | same v => exact .refl (fun key => Eq.refl (maskedKey key)) _
  | string key key' => exact .ok rfl

theorem agree_of_keysReplaced {v v' : Json} (h : KeysReplaced v v') :
    Agree (fun keys keys' => keys.map (List.map maskedKey) = keys'.map (List.map maskedKey))
      (Json.asOption (Json.asList (Json.asOption Json.asString)) v)
      (Json.asOption (Json.asList (Json.asOption Json.asString)) v') := by
  -- a replaced list is still a list, so it is not taken for `null`
  have hlist := Json.asList_agree (fun key => Eq.refl (maskedKey key))
    (fun _ _ hv => agree_of_keyReplaced hv) h
  cases h with
  | same v => exact .refl (fun keys => Eq.refl (keys.map (List.map maskedKey))) _
  | array =>
    refine hlist.map fun keys keys' hkeys => ?_
    rw [← List.forall₂_map_right_iff, ← List.forall₂_map_left_iff, List.forall₂_eq_eq_eq] at hkeys
    exact congrArg some hkeys

namespace Record

/-- How the value of a member may be replaced. -/
def MemberRekeyed : Member → Json → Json → Prop
  | .preSharedKey => KeyReplaced
  | .wepKeys => KeysReplaced
  | _ => Eq

/-- The keys in a record may be replaced by others; all else that a record has stays. -/
abbrev Rekeyed : Json → Json → Prop := schema.Alike MemberRekeyed

theorem memberRekeyed_refl (m : Member) (x : Json) : MemberRekeyed m x x := by
  cases m <;> first | rfl | exact .same x

theorem memberRekeyed_trans (m : Member) (x y z : Json) (h : MemberRekeyed m x y)
    (h' : MemberRekeyed m y z) : MemberRekeyed m x z := by
  cases m with
  | preSharedKey => exact KeyReplaced.trans x y z h h'
  | wepKeys => exact Json.ItemsAlike.trans KeyReplaced.trans h h'
  | _ => exact Eq.trans h h'

theorem put_rekeyed (t t' : Record) (m : Member) (x x' : Json) (ht : SameMasked t t')
    (hx : MemberRekeyed m x x') : Agree SameMasked (put t m x) (put t' m x') := by
  simp only [SameMasked, masked, mk.injEq] at ht
  cases m with
  | preSharedKey =>
    refine (agree_of_keyReplaced hx).map fun key key' hkey => ?_
    simp [SameMasked, masked, ht, hkey]
  | wepKeys =>
    refine (agree_of_keysReplaced hx).map fun keys keys' hkeys => ?_
    simp only [SameMasked, masked, ht, mk.injEq, true_and, and_true]
    exact hkeys
  | _ =>
    obtain rfl := hx
    exact .map_same (fun a => by simp [SameMasked, masked, ht]) _

theorem ofJson_rekeyed {v v' : Json} (h : Rekeyed v v') : Agree SameMasked (ofJson v) (ofJson v') :=
  Json.Schema.read_agree SameMasked.refl put_rekeyed _ h

theorem decode_rekeyed {v v' : Json} (h : Rekeyed v v') :
    (decode v).map Profile.masked = (decode v').map Profile.masked := by
  have hread := ofJson_rekeyed h
  unfold decode
  generalize ofJson v = r at hread
  generalize ofJson v' = r' at hread
  cases hread with
  | error e => rfl
  | @ok r r' hr =>
    show r.toProfile.map Profile.masked = r'.toProfile.map Profile.masked
    rw [← toProfile_masked, hr, toProfile_masked]

theorem unknownFlags_of_sameMasked {r r' : Record} (h : SameMasked r r') :
    r.unknownFlags = r'.unknownFlags := by
  have hmasked : r.masked.unknownFlags = r'.masked.unknownFlags := by rw [h]
  exact hmasked

end Record

end WirelessArchive
