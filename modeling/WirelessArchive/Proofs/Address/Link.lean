import WirelessArchive.Proofs.Json.Shape
import WirelessArchive.Proofs.Json.Typed
import WirelessArchive.Proofs.Text.Numeral

/-!
# What a text gives as a link address

The text of a link address is divided by its first `/`.  In front of it stands an address, and
behind it the numeral of a number below 256 that is no larger than the width of the address; the
first of these that fails is the error (`Judged`).  What is written of a link address is such a
text, so that it is read back (`parse_text`), and a JSON string is judged by its text.
-/

namespace WirelessArchive.LinkAddress

open Text.Decimal (IsNumeral)

/-- The verdict on a text: the first check that fails, or else the parts of the text. -/
inductive Judged : String → Except ParseError LinkAddress → Prop where
  | noLength {text : String} : '/' ∉ text.toList → Judged text (.error (.noLength text))
  | badAddress {before after : String} : '/' ∉ before.toList →
    (∀ address, ¬Address.Spells before.toList address) →
    Judged (before ++ "/" ++ after) (.error (.badAddress before))
  | badLength {before after : String} {address : Address} :
    Address.Spells before.toList address → (∀ n, IsNumeral after.toList n → 255 < n) →
    Judged (before ++ "/" ++ after) (.error (.badLength after))
  | tooLong {before after : String} {address : Address} {n : UInt8} :
    Address.Spells before.toList address → IsNumeral after.toList n.toNat →
    address.width < n.toNat → Judged (before ++ "/" ++ after) (.error (.tooLong n address.width))
  | link {before after : String} {l : LinkAddress} :
    Address.Spells before.toList l.address → IsNumeral after.toList l.prefixLength.toNat →
    Judged (before ++ "/" ++ after) (.ok l)

/-! ## Building a link address -/

theorem build_eq_ok_iff {a : Address} {n : UInt8} {l : LinkAddress} :
    build a n = .ok l ↔ l.address = a ∧ l.prefixLength = n := by
  constructor
  · intro h
    unfold build at h
    split at h
    · cases h
      exact ⟨rfl, rfl⟩
    · cases h
  · rintro ⟨rfl, rfl⟩
    exact build_address l

/-- A link address is built exactly of a prefix that fits the address. -/
theorem exists_build_iff {a : Address} {n : UInt8} :
    (∃ l, build a n = .ok l) ↔ n.toNat ≤ a.width := by
  constructor
  · rintro ⟨l, hl⟩
    obtain ⟨rfl, rfl⟩ := build_eq_ok_iff.1 hl
    exact l.prefixLength_le
  · exact fun h => ⟨⟨a, n, h⟩, build_eq_ok_iff.2 ⟨rfl, rfl⟩⟩

theorem build_eq_error_iff {a : Address} {n : UInt8} {e : ParseError} :
    build a n = .error e ↔ a.width < n.toNat ∧ e = .tooLong n a.width := by
  unfold build
  split
  · next h => simp [Nat.not_lt.2 h]
  · next h => simp [Nat.not_le.1 h, eq_comm]

/-! ## Reading a text -/

section Parts

variable {before after : String} {address : Address}

theorem splitFirst?_slash (h : '/' ∉ before.toList) :
    Text.splitFirst? '/' (before ++ "/" ++ after).toList = some (before.toList, after.toList) :=
  Text.splitFirst?_eq_some_iff.2 ⟨by simp, h⟩

theorem parse_badAddress (h : '/' ∉ before.toList) (ha : Address.parse? before.toList = none) :
    parse (before ++ "/" ++ after) = .error (.badAddress before) := by
  rw [parse, splitFirst?_slash h]
  dsimp only
  rw [ha]
  dsimp only
  rw [String.ofList_toList]

theorem parse_badLength (ha : Address.Spells before.toList address)
    (hn : Text.Decimal.parse? UInt8.size after.toList = none) :
    parse (before ++ "/" ++ after) = .error (.badLength after) := by
  rw [parse, splitFirst?_slash ha.slash_notMem]
  dsimp only
  rw [Address.parse?_eq_some_iff.2 ha]
  dsimp only
  rw [hn]
  dsimp only
  rw [String.ofList_toList]

theorem parse_parts (ha : Address.Spells before.toList address) {n : UInt8}
    (hn : IsNumeral after.toList n.toNat) :
    parse (before ++ "/" ++ after) = build address n := by
  have hparse : Text.Decimal.parse? UInt8.size after.toList = some n.toNat :=
    Text.Decimal.parse?_eq_some_iff.2 ⟨hn, n.toNat_lt⟩
  rw [parse, splitFirst?_slash ha.slash_notMem]
  dsimp only
  rw [Address.parse?_eq_some_iff.2 ha]
  dsimp only
  rw [hparse]
  dsimp only
  rw [UInt8.ofNat_toNat]

end Parts

/-- Every text has a verdict, which the reader gives. -/
theorem judged_parse (text : String) : Judged text (parse text) := by
  by_cases h : '/' ∈ text.toList
  · obtain ⟨before, after, rfl, hbefore⟩ := Text.exists_parts "/" (by rfl) h
    cases haddress : Address.parse? before.toList with
    | none =>
      rw [parse_badAddress hbefore haddress]
      refine .badAddress hbefore fun address ha => ?_
      rw [Address.parse?_eq_some_iff.2 ha] at haddress
      cases haddress
    | some address =>
      have ha := Address.parse?_eq_some_iff.1 haddress
      cases hlength : Text.Decimal.parse? UInt8.size after.toList with
      | none =>
        rw [parse_badLength ha hlength]
        refine .badLength ha fun n hn => Nat.lt_of_not_le fun hle => ?_
        rw [Text.Decimal.parse?_eq_some_iff.2 ⟨hn, Nat.lt_succ_of_le hle⟩] at hlength
        cases hlength
      | some n =>
        obtain ⟨hn, hlt⟩ := Text.Decimal.parse?_eq_some_iff.1 hlength
        rw [← UInt8.toNat_ofNat_of_lt' hlt] at hn
        rw [parse_parts ha hn]
        cases hbuild : build address (UInt8.ofNat n) with
        | ok l =>
          obtain ⟨rfl, hl⟩ := build_eq_ok_iff.1 hbuild
          rw [← hl] at hn
          exact .link ha hn
        | error e =>
          obtain ⟨hwidth, rfl⟩ := build_eq_error_iff.1 hbuild
          exact .tooLong ha hn hwidth
  · rw [parse, Text.splitFirst?_eq_none_iff.2 h]
    exact .noLength h

theorem Judged.parse_eq {text : String} {r : Except ParseError LinkAddress} (h : Judged text r) :
    parse text = r := by
  cases h with
  | noLength h => rw [parse, Text.splitFirst?_eq_none_iff.2 h]
  | badAddress h ha =>
    refine parse_badAddress h (Option.eq_none_iff_forall_ne_some.2 fun address haddress => ?_)
    exact ha address (Address.parse?_eq_some_iff.1 haddress)
  | badLength ha hn =>
    refine parse_badLength ha (Option.eq_none_iff_forall_ne_some.2 fun n hlength => ?_)
    obtain ⟨hnumeral, hlt⟩ := Text.Decimal.parse?_eq_some_iff.1 hlength
    exact absurd (hn n hnumeral) (Nat.not_lt.2 (Nat.le_of_lt_succ hlt))
  | tooLong ha hn hwidth => rw [parse_parts ha hn, build_eq_error_iff.2 ⟨hwidth, rfl⟩]
  | link ha hn => rw [parse_parts ha hn, build_address]

/-- The reader gives the verdict on the text, and there is no other. -/
theorem parse_eq_iff_judged {text : String} {r : Except ParseError LinkAddress} :
    parse text = r ↔ Judged text r := by
  constructor
  · rintro rfl
    exact judged_parse text
  · exact Judged.parse_eq

/-! ## JSON strings -/

/-- A JSON text gives the verdict: the link address, or a fault that carries the error. -/
def Gives (json : List UInt8) : Except ParseError LinkAddress → Prop
  | .ok l => Json.readLink json = .ok l
  | .error e => ∃ unread, Json.readLink json = .error ⟨.type (.badLink e), unread⟩

theorem gives_parse {json : List UInt8} {text : String} (h : Json.read json = .ok (.string text)) :
    Gives json (parse text) := by
  cases hparse : parse text with
  | ok l => exact Json.readLink_eq_ok_iff.2 ⟨text, h, hparse⟩
  | error e => exact Json.readLink_error h hparse

theorem Gives.unique {json : List UInt8} {r r' : Except ParseError LinkAddress} (h : Gives json r)
    (h' : Gives json r') : r = r' := by
  cases r with
  | ok l =>
    cases r' with
    | ok l' => rw [Except.ok.inj (h.symm.trans h')]
    | error e' =>
      obtain ⟨unread, h'⟩ := h'
      cases h.symm.trans h'
  | error e =>
    obtain ⟨unread, h⟩ := h
    cases r' with
    | ok l' => cases h.symm.trans h'
    | error e' =>
      obtain ⟨unread', h'⟩ := h'
      cases h.symm.trans h'
      rfl

theorem asLink_string (text : String) :
    Json.asLink (.string text) = (parse text).mapError .badLink := by
  rw [Json.asLink]
  cases parse text <;> rfl

theorem mapError_badLink_injective {r r' : Except ParseError LinkAddress}
    (h : r.mapError Json.Mismatch.badLink = r'.mapError .badLink) : r = r' := by
  cases r <;> cases r' <;> cases h <;> rfl

/-- A text is judged by the first of its faults, and so are a JSON string, as a value and as a text
of its own, by the text in it. -/
theorem texts_classified (text : String) (r : Except ParseError LinkAddress) :
    (parse text = r ↔ Judged text r) ∧
      (Json.asLink (.string text) = r.mapError .badLink ↔ Judged text r) ∧
      ∀ json, Json.read json = .ok (.string text) → (Gives json r ↔ Judged text r) := by
  refine ⟨parse_eq_iff_judged, ?_, fun json hjson => ?_⟩
  · rw [← parse_eq_iff_judged, asLink_string]
    exact ⟨mapError_badLink_injective, congrArg _⟩
  · rw [← parse_eq_iff_judged]
    constructor
    · exact (gives_parse hjson).unique
    · rintro rfl
      exact gives_parse hjson

/-! ## What is written -/

theorem text_injective : Function.Injective text := Text.injective_of_readBack parse_text

theorem text_eq (l : LinkAddress) :
    l.text = l.address.text ++ "/" ++ toString l.prefixLength.toNat := by
  apply String.toList_injective
  simp [text, toChars, Address.text, Nat.repr, ToString.toString]

/-- The text of a link address: the address as addresses are written, the mark, and the length in
decimal notation.  It is read back in every way. -/
structure Faithful (l : LinkAddress) : Prop where
  written : ∃ address : String, Address.Writes l.address address.toList ∧
    l.text = address ++ "/" ++ toString l.prefixLength.toNat
  parsed : parse l.text = .ok l
  value : Json.asLink (.string l.text) = .ok l
  json : ∀ layout, Json.readLink (Json.print layout (.string l.text)) = .ok l
  fits : l.prefixLength.toNat ≤ if l.address.isV6 then 128 else 32

theorem faithful (l : LinkAddress) : Faithful l where
  written := by
    refine ⟨l.address.text, ?_, text_eq l⟩
    rw [Address.text, String.toList_ofList]
    exact Address.writes_toChars l.address
  parsed := parse_text l
  value := Json.asLink_text l
  json layout :=
    Json.readLink_eq_ok_iff.2 ⟨l.text, Json.read_print layout (.string _ _), parse_text l⟩
  fits := by
    have h := l.prefixLength_le
    cases haddress : l.address <;> rw [haddress] at h <;> exact h

/-- Every link address is read back from its text, so that no two share one and reading loses
nothing that is written again; and one is built exactly of a prefix that fits the address. -/
theorem texts_faithful :
    (∀ l : LinkAddress, Faithful l) ∧ Function.Injective text ∧
      (∀ s l, parse s = .ok l → parse l.text = .ok l) ∧
      (∀ a n l, build a n = .ok l ↔ l.address = a ∧ l.prefixLength = n) ∧
      ∀ a n, (∃ l, build a n = .ok l) ↔ n.toNat ≤ a.width := by
  refine ⟨faithful, text_injective, ?_, ?_, ?_⟩
  · exact fun s l _ => parse_text l
  · exact fun a n l => build_eq_ok_iff
  · exact fun a n => exists_build_iff

end WirelessArchive.LinkAddress
