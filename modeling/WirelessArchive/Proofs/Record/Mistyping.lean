import WirelessArchive.Proofs.Json.Arrangement
import WirelessArchive.Proofs.Json.FirstFault
import WirelessArchive.Proofs.Json.Grammar
import WirelessArchive.Proofs.Record.Members

/-!
# Mistyped keys

A number or a truth value is no key, and no scalar but `null` can stand for the list of keys.  With
such a value in the place of one an object is no record, and what is reported of it is its first
fault.  The mistyped value is described if nothing before it is at fault (`ofJson_of_mistyped`); else
it has no part in the report (`ofJson_of_faultBefore`).
-/

namespace WirelessArchive

open Json (IsText OrNull)

/-- A place in a record where a key is expected, or the list of them. -/
inductive KeyPlace where
  | passphrase
  | keys
  /-- In the list of keys, between other entries. -/
  | slot (before after : List Json)

/-- A scalar that does not belong in a place, and another one of its type. -/
inductive Mistyped : KeyPlace → Json → Json → Prop where
  | bool (place : KeyPlace) (b b' : Bool) : Mistyped place (.bool b) (.bool b')
  | number (place : KeyPlace) (n n' : Json.Number) : Mistyped place (.number n) (.number n')
  | text (s s' : String) : Mistyped .keys (.string s) (.string s')

theorem Mistyped.symm {place : KeyPlace} {v v' : Json} (h : Mistyped place v v') :
    Mistyped place v' v := by
  cases h with
  | bool => exact .bool _ _ _
  | number => exact .number _ _ _
  | text => exact .text _ _

namespace KeyPlace

/-- The member that the place belongs to. -/
def member : KeyPlace → Record.Member
  | passphrase => .preSharedKey
  | keys => .wepKeys
  | slot _ _ => .wepKeys

/-- The value of the member with `v` in the place. -/
def fill : KeyPlace → Json → Json
  | passphrase, v => v
  | keys, v => v
  | slot before after, v => .array (before ++ v :: after)

/-- What belongs in the place. -/
def expected : KeyPlace → String
  | passphrase => "a string"
  | keys => "a sequence"
  | slot _ _ => "a string"

/-- The entries of the list that stand before the place. -/
def before : KeyPlace → List Json
  | slot before _ => before
  | _ => []

/-- The account of a value that does not belong in the place. -/
def refusal (place : KeyPlace) (v : Json) : String :=
  "invalid type: " ++ v.describe ++ ", expected " ++ place.expected

/-- Something that is read before the place is at fault. -/
inductive FaultBefore (place : KeyPlace) (members : List (String × Json)) : Prop where
  /-- The value of a member whose key comes before is not of its type. -/
  | member {m : Record.Member} {x : Json} : m.key < place.member.key →
    Json.member? members m.key = some x → (∀ r, ¬Record.Has r m (some x)) → FaultBefore place members
  /-- An entry that stands before in the list is neither a key nor `null`. -/
  | entry {x : Json} : x ∈ place.before → (∀ key, ¬OrNull IsText x key) → FaultBefore place members

theorem refusal_inj {place : KeyPlace} {v v' : Json} :
    place.refusal v = place.refusal v' ↔ v.describe = v'.describe := by
  show "invalid type: " ++ v.describe ++ ", expected " ++ place.expected =
    "invalid type: " ++ v'.describe ++ ", expected " ++ place.expected ↔ _
  rw [String.append_left_inj, String.append_left_inj, String.append_right_inj]

end KeyPlace

namespace Record

/-- The objects differ in nothing but the scalars `v` and `v'`, which do not belong in their
place. -/
structure Retyped (place : KeyPlace) (v v' : Json) (members members' : List (String × Json)) :
    Prop where
  mistyped : Mistyped place v v'
  value : Json.member? members place.member.key = some (place.fill v)
  value' : Json.member? members' place.member.key = some (place.fill v')
  elsewhere : ∀ key, key ≠ place.member.key →
    Json.member? members' key = Json.member? members key

variable {place : KeyPlace} {v v' : Json} {members members' : List (String × Json)}

theorem Retyped.symm (h : Retyped place v v' members members') :
    Retyped place v' v members' members :=
  ⟨h.mistyped.symm, h.value', h.value, fun key hkey => (h.elsewhere key hkey).symm⟩

/-- The scalar may be replaced in the last member under its key. -/
theorem retyped_replace (h : Mistyped place v v') (front : List (String × Json))
    {back : List (String × Json)} (hlast : Json.member? back place.member.key = none) :
    Retyped place v v' (front ++ (place.member.key, place.fill v) :: back)
      (front ++ (place.member.key, place.fill v') :: back) := by
  refine ⟨h, ?_, ?_, fun key hkey => ?_⟩ <;>
    rw [Json.Schema.member?_append, Json.Schema.member?_cons, Json.Schema.member?_singleton]
  · rw [hlast, if_pos rfl]
    rfl
  · rw [hlast, if_pos rfl]
    rfl
  · rw [if_neg hkey, Json.Schema.member?_append, Json.Schema.member?_cons,
      Json.Schema.member?_singleton, if_neg hkey]

theorem Retyped.member?_eq (h : Retyped place v v' members members') {m : Member}
    (hm : m.key < place.member.key) :
    Json.member? members' m.key = Json.member? members m.key :=
  h.elsewhere m.key fun e => String.lt_irrefl _ (e ▸ hm)

theorem Retyped.faultBefore (h : Retyped place v v' members members')
    (hfault : place.FaultBefore members) : place.FaultBefore members' := by
  cases hfault with
  | member hlt hx hrefused => exact .member hlt (h.member?_eq hlt ▸ hx) hrefused
  | entry hx hrefused => exact .entry hx hrefused

/-! ## What the steps of the reader report -/

theorem put_array (t : Record) (items : List Json) :
    put t .wepKeys (.array items) =
      (items.mapM (Json.asOption Json.asString)).map fun keys => { t with wepKeys := some keys } := by
  show Except.map _ (Except.map some (items.mapM (Json.asOption Json.asString))) = _
  cases items.mapM (Json.asOption Json.asString) <;> rfl

theorem put_of_mistyped (h : Mistyped place v v')
    (hbefore : ∀ x ∈ place.before, ∃ key, OrNull IsText x key) (t : Record) :
    put t place.member (place.fill v) = .error (.wrongType v place.expected) := by
  cases place with
  | passphrase => cases h <;> rfl
  | keys => cases h <;> rfl
  | slot before after =>
    have hv : Json.asOption Json.asString v = .error (.wrongType v "a string") := by
      cases h <;> rfl
    have hlist : (before ++ v :: after).mapM (Json.asOption Json.asString) =
        .error (.wrongType v "a string") :=
      Json.mapM_of_refused (fun x hx => (hbefore x hx).imp fun key => (Json.reads_text? x key).2)
        hv after
    show put t .wepKeys (.array _) = _
    rw [put_array, hlist]
    rfl

theorem exists_put_of_entry
    (hbefore : ∃ x ∈ place.before, ∀ key, ¬OrNull IsText x key) :
    ∃ e, ∀ v t, put t place.member (place.fill v) = .error e := by
  cases place with
  | passphrase => simp [KeyPlace.before] at hbefore
  | keys => simp [KeyPlace.before] at hbefore
  | slot before after =>
    obtain ⟨x, hx, hrefused⟩ := hbefore
    obtain ⟨e, he⟩ : ∃ e, ∀ rest, (before ++ rest).mapM (Json.asOption Json.asString) = .error e :=
      Json.exists_mapM_of_refused_before
        ⟨x, hx, fun key hkey => hrefused key ((Json.reads_text? x key).1 hkey)⟩
    refine ⟨e, fun v t => ?_⟩
    show put t .wepKeys (.array _) = _
    rw [put_array, he]
    rfl

/-! ## What is reported of an object -/

theorem isSorted_schema : schema.IsSorted := by
  unfold Json.Schema.IsSorted
  decide

/-- The mistyped value is reported if nothing before it is at fault. -/
theorem ofJson_of_mistyped (h : Retyped place v v' members members')
    (hfault : ¬place.FaultBefore members) :
    ofJson (.object members) = .error (.wrongType v place.expected) := by
  refine Json.Schema.read_of_refused fields isSorted_schema (fun n x hlt hx => ?_) h.value
    (put_of_mistyped h.mistyped fun x hx => ?_)
  · by_contra hrefused
    exact hfault (.member hlt hx (not_exists.1 hrefused))
  · by_contra hrefused
    exact hfault (.entry hx (not_exists.1 hrefused))

/-- If something before it is at fault, the mistyped value has no part in the report. -/
theorem ofJson_of_faultBefore (h : Retyped place v v' members members')
    (hfault : place.FaultBefore members) :
    ∃ e, ofJson (.object members) = .error e ∧ ofJson (.object members') = .error e := by
  by_cases hmember : ∃ m x, m.key < place.member.key ∧ Json.member? members m.key = some x ∧
      ∀ r, ¬Has r m (some x)
  · exact Json.Schema.read_congr_of_refused fields isSorted_schema (fun n => h.member?_eq) hmember
  · -- no member before is at fault, so an entry of the list is, and the reader comes to the list
    have hreadable : ∀ n x, n.key < place.member.key → Json.member? members n.key = some x →
        ∃ r, Has r n (some x) := by
      intro n x hlt hx
      by_contra hrefused
      exact hmember ⟨n, x, hlt, hx, not_exists.1 hrefused⟩
    cases hfault with
    | member hlt hx hrefused => exact absurd ⟨_, _, hlt, hx, hrefused⟩ hmember
    | entry hx hrefused =>
      obtain ⟨e, he⟩ := exists_put_of_entry ⟨_, hx, hrefused⟩
      refine ⟨e, ?_, ?_⟩
      · exact Json.Schema.read_of_refused fields isSorted_schema hreadable h.value (he v)
      · refine Json.Schema.read_of_refused fields isSorted_schema (fun n x hlt hn => ?_) h.value'
          (he v')
        exact hreadable n x hlt (h.member?_eq hlt ▸ hn)

/-- Both objects are no records; the accounts of them differ only as the mistyped values do. -/
theorem exists_ofJson_of_retyped (h : Retyped place v v' members members') :
    ∃ e e', ofJson (.object members) = .error e ∧ ofJson (.object members') = .error e' ∧
      (place.FaultBefore members → e.message = e'.message) ∧
      (¬place.FaultBefore members →
        e.message = place.refusal v ∧ e'.message = place.refusal v') := by
  by_cases hfault : place.FaultBefore members
  · obtain ⟨e, he, he'⟩ := ofJson_of_faultBefore h hfault
    exact ⟨e, e, he, he', fun _ => rfl, fun hnone => absurd hfault hnone⟩
  · have hfault' : ¬place.FaultBefore members' := fun hf => hfault (h.symm.faultBefore hf)
    exact ⟨_, _, ofJson_of_mistyped h hfault, ofJson_of_mistyped h.symm hfault',
      fun hf => absurd hf hfault, fun _ => ⟨rfl, rfl⟩⟩

end Record

end WirelessArchive
