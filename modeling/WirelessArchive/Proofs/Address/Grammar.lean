import Mathlib.Algebra.Group.Nat.Defs
import WirelessArchive.Address.Basic
import WirelessArchive.Proofs.Text.Digits

/-!
# The grammar of addresses

The texts of IP addresses by rules that say nothing of how they are read.  An IPv4 address is four
octets with points between them (`V4.Spells`).  An IPv6 address is eight groups with colons between
them, or two parts around `::`, which stands for at least one zero group; at the end of the text the
last two groups may be in dotted decimal (`V6.Spells`).

The reader accepts exactly these texts (`parse?_eq_some_iff`).  It takes as many digits and groups
as it finds and never goes back, so both directions follow it part by part: what `readPart` takes
off a text is a part in the sense of the grammar (`readPart_sound`), and a part is taken off as a
whole where the text ends or `::` follows (`IsJoined.readPart_eq`).  No text spells addresses of
both families, since no group starts a dotted address (`IsGroup.v4Read?_eq_none`).
-/

namespace WirelessArchive.Address

open Text.Digits

/-! ## Octets and groups -/

/-- Decimal digits of a number below 256, without a leading zero. -/
structure IsOctet (cs : List Char) (n : UInt8) : Prop where
  ne_nil : cs ≠ []
  isDigit : ∀ c ∈ cs, c.isDigit = true
  noLeadingZero : cs.head? = some '0' → cs = ['0']
  value : Nat.ofDigitChars 10 cs 0 = n.toNat

/-- One to four hexadecimal digits, of either case. -/
structure IsGroup (cs : List Char) (g : UInt16) : Prop where
  ne_nil : cs ≠ []
  length_le : cs.length ≤ 4
  isHexDigit : ∀ c ∈ cs, isHexDigit c = true
  value : hexValue cs = g.toNat

theorem toNat_ne_zero_of_isDigit {c : Char} (h : c.isDigit = true) (h0 : c ≠ '0') :
    1 ≤ c.toNat - '0'.toNat := by
  rw [Char.isDigit_iff_toNat] at h
  have hne : c.toNat ≠ '0'.toNat := fun e => h0 (Char.toNat_inj.1 e)
  omega

/-- Without a leading zero, a number below 256 has at most three digits. -/
theorem IsOctet.length_le {cs : List Char} {n : UInt8} (h : IsOctet cs n) : cs.length ≤ 3 := by
  have hn : n.toNat < 256 := n.toNat_lt
  match cs, h with
  | [], _ | [_], _ | [_, _], _ | [_, _, _], _ => simp
  | c₁ :: c₂ :: c₃ :: c₄ :: ds, h =>
    have h0 : c₁ ≠ '0' := by
      rintro rfl
      cases h.noLeadingZero rfl
    have hc := toNat_ne_zero_of_isDigit (h.isDigit c₁ List.mem_cons_self) h0
    have hvalue := h.value
    simp only [Nat.ofDigitChars_cons] at hvalue
    have hle := le_ofDigitChars ds (10 * (10 * (10 * (10 * 0 + (c₁.toNat - '0'.toNat)) +
      (c₂.toNat - '0'.toNat)) + (c₃.toNat - '0'.toNat)) + (c₄.toNat - '0'.toNat))
    omega

/-- An octet is taken off a text where no digit follows. -/
theorem IsOctet.readOctet?_eq {cs : List Char} {n : UInt8} (h : IsOctet cs n) {rest : List Char}
    (hrest : ∀ c ∈ rest.head?, c.isDigit = false) : readOctet? (cs ++ rest) = some (n, rest) := by
  obtain ⟨htake, hdrop⟩ := span_append h.isDigit hrest
  have hn : n.toNat < 256 := n.toNat_lt
  have hzero : ¬(cs.head? = some '0' ∧ cs.length ≠ 1) := by
    rintro ⟨hhead, hlength⟩
    rw [h.noLeadingZero hhead] at hlength
    exact hlength rfl
  have hok : ¬(cs = [] ∨ 3 < cs.length ∨ (cs.head? = some '0' ∧ cs.length ≠ 1) ∨
      255 < Nat.ofDigitChars 10 cs 0) := by
    rw [h.value]
    rintro (hnil | hlong | hlead | hbig)
    · exact h.ne_nil hnil
    · exact absurd h.length_le (by omega)
    · exact hzero hlead
    · omega
  unfold readOctet?
  rw [htake, hdrop, if_neg hok, h.value, UInt8.ofNat_toNat]

/-- What is taken off a text as an octet is one, and it is all the digits at the front. -/
theorem readOctet?_sound {cs rest : List Char} {n : UInt8} (h : readOctet? cs = some (n, rest)) :
    ∃ digits, cs = digits ++ rest ∧ IsOctet digits n ∧ rest = cs.dropWhile Char.isDigit := by
  unfold readOctet? at h
  dsimp only at h
  split at h
  · cases h
  · next hok =>
    simp only [not_or, not_and, Decidable.not_not] at hok
    obtain ⟨hne, -, hzero, hvalue⟩ := hok
    obtain ⟨rfl, rfl⟩ := Prod.mk.inj (Option.some.inj h)
    refine ⟨_, List.takeWhile_append_dropWhile.symm, ⟨hne, ?_, fun hhead => ?_, ?_⟩, rfl⟩
    · exact fun c hc => List.all_eq_true.1 List.all_takeWhile c hc
    · obtain ⟨c, hc⟩ := List.length_eq_one_iff.1 (hzero hhead)
      rw [hc, List.head?_cons, Option.some.injEq] at hhead
      rw [hc, hhead]
    · exact (UInt8.toNat_ofNat_of_lt (Nat.lt_succ_of_le (Nat.not_lt.1 hvalue))).symm

/-- No character that may follow a group is a hexadecimal digit or a point. -/
def EndsGroup (rest : List Char) : Prop := ∀ c ∈ rest.head?, isHexDigit c = false ∧ c ≠ '.'

theorem endsGroup_nil : EndsGroup [] := by rintro c ⟨⟩

theorem endsGroup_colon (cs : List Char) : EndsGroup (':' :: cs) := by
  intro c hc
  obtain rfl := Option.some.inj hc
  exact ⟨rfl, by decide⟩

/-- A group is taken off a text where it ends. -/
theorem IsGroup.readGroup?_eq {cs : List Char} {g : UInt16} (h : IsGroup cs g) {rest : List Char}
    (hrest : EndsGroup rest) : readGroup? (cs ++ rest) = some (g, rest) := by
  obtain ⟨htake, hdrop⟩ := span_append h.isHexDigit fun c hc => (hrest c hc).1
  have hok : ¬(cs = [] ∨ 4 < cs.length) := by
    rintro (hnil | hlong)
    · exact h.ne_nil hnil
    · exact absurd h.length_le (by omega)
  unfold readGroup?
  rw [htake, hdrop, if_neg hok, h.value, UInt16.ofNat_toNat]

theorem hexDigit?_lt {c : Char} {d : Nat} (h : hexDigit? c = some d) : d < 16 := by
  unfold hexDigit? at h
  have hval : ∀ a b : Char, a ≤ b ↔ a.toNat ≤ b.toNat := fun a b => Iff.rfl
  simp only [hval] at h
  have h9 : '9'.toNat = '0'.toNat + 9 := rfl
  have hf : 'f'.toNat = 'a'.toNat + 5 := rfl
  have hF : 'F'.toNat = 'A'.toNat + 5 := rfl
  split at h
  · obtain rfl := Option.some.inj h
    omega
  · split at h
    · obtain rfl := Option.some.inj h
      omega
    · split at h
      · obtain rfl := Option.some.inj h
        omega
      · cases h

/-- A number in hexadecimal digits is bounded by how many there are. -/
theorem foldl_hexDigit_lt (cs : List Char) (n : Nat) :
    cs.foldl (fun n c => n * 16 + (hexDigit? c).getD 0) n < (n + 1) * 16 ^ cs.length := by
  induction cs generalizing n with
  | nil => simp
  | cons c cs ih =>
    have hd : (hexDigit? c).getD 0 < 16 := by
      cases h : hexDigit? c with
      | none => decide
      | some d => exact hexDigit?_lt h
    rw [List.foldl_cons, List.length_cons]
    calc _ < (n * 16 + (hexDigit? c).getD 0 + 1) * 16 ^ cs.length := ih _
      _ ≤ (n + 1) * 16 * 16 ^ cs.length := Nat.mul_le_mul_right _ (by omega)
      _ = (n + 1) * 16 ^ (cs.length + 1) := by rw [Nat.pow_succ', Nat.mul_assoc]

theorem hexValue_lt {cs : List Char} (h : cs.length ≤ 4) : hexValue cs < 65536 := by
  have hlt := foldl_hexDigit_lt cs 0
  have hle : 16 ^ cs.length ≤ 16 ^ 4 := Nat.pow_le_pow_right (by decide) h
  unfold hexValue
  omega

/-- What is taken off a text as a group is one. -/
theorem readGroup?_sound {cs rest : List Char} {g : UInt16} (h : readGroup? cs = some (g, rest)) :
    ∃ digits, cs = digits ++ rest ∧ IsGroup digits g := by
  unfold readGroup? at h
  dsimp only at h
  split at h
  · cases h
  · next hok =>
    rw [not_or, Nat.not_lt] at hok
    obtain ⟨hne, hlength⟩ := hok
    obtain ⟨rfl, rfl⟩ := Prod.mk.inj (Option.some.inj h)
    refine ⟨_, List.takeWhile_append_dropWhile.symm, hne, hlength, fun c hc => ?_, ?_⟩
    · exact List.all_eq_true.1 List.all_takeWhile c hc
    · exact (UInt16.toNat_ofNat_of_lt (hexValue_lt hlength)).symm

/-! ## Dotted decimal -/

namespace V4

/-- Four octets with points between them. -/
inductive Spells : List Char → V4 → Prop where
  | octets {o₁ o₂ o₃ o₄ : List Char} {a : V4} : IsOctet o₁ a.first → IsOctet o₂ a.second →
    IsOctet o₃ a.third → IsOctet o₄ a.fourth →
    Spells (o₁ ++ '.' :: (o₂ ++ '.' :: (o₃ ++ '.' :: o₄))) a

end V4

theorem readMarkedOctet?_eq_some_iff {mark : Char} {cs : List Char} {o : UInt8 × List Char} :
    readMarkedOctet? mark cs = some o ↔ ∃ cs', cs = mark :: cs' ∧ readOctet? cs' = some o := by
  unfold readMarkedOctet?
  cases cs with
  | nil => simp [skip?]
  | cons c cs =>
    by_cases hc : c = mark
    · subst hc
      simp [skip?]
    · simp [skip?, hc]

theorem IsOctet.readMarkedOctet?_eq {cs : List Char} {n : UInt8} (h : IsOctet cs n) (mark : Char)
    {rest : List Char} (hrest : ∀ c ∈ rest.head?, c.isDigit = false) :
    readMarkedOctet? mark (mark :: (cs ++ rest)) = some (n, rest) :=
  readMarkedOctet?_eq_some_iff.2 ⟨_, rfl, h.readOctet?_eq hrest⟩

namespace V4

theorem read?_eq_some_iff {cs rest : List Char} {a : V4} :
    read? cs = some (a, rest) ↔ ∃ cs₁ cs₂ cs₃, readOctet? cs = some (a.first, cs₁) ∧
      readMarkedOctet? '.' cs₁ = some (a.second, cs₂) ∧
      readMarkedOctet? '.' cs₂ = some (a.third, cs₃) ∧
      readMarkedOctet? '.' cs₃ = some (a.fourth, rest) := by
  unfold read?
  simp only [Option.bind_eq_bind, Option.bind_eq_some_iff, Option.pure_def, Option.some.injEq,
    Prod.exists, Prod.mk.injEq]
  constructor
  · rintro ⟨o₁, cs₁, h₁, o₂, cs₂, h₂, o₃, cs₃, h₃, o₄, cs₄, h₄, rfl, rfl⟩
    exact ⟨cs₁, cs₂, cs₃, h₁, h₂, h₃, h₄⟩
  · rintro ⟨cs₁, cs₂, cs₃, h₁, h₂, h₃, h₄⟩
    exact ⟨_, cs₁, h₁, _, cs₂, h₂, _, cs₃, h₃, _, _, h₄, rfl, rfl⟩

/-- A dotted address is taken off a text where no digit follows. -/
theorem Spells.read?_eq {cs : List Char} {a : V4} (h : Spells cs a) {rest : List Char}
    (hrest : ∀ c ∈ rest.head?, c.isDigit = false) : read? (cs ++ rest) = some (a, rest) := by
  have hpoint : ∀ cs : List Char, ∀ c ∈ ('.' :: cs).head?, c.isDigit = false := by
    rintro cs c hc
    obtain rfl := Option.some.inj hc
    rfl
  obtain ⟨h₁, h₂, h₃, h₄⟩ := h
  simp only [List.append_assoc, List.cons_append]
  exact read?_eq_some_iff.2 ⟨_, _, _, h₁.readOctet?_eq (hpoint _),
    h₂.readMarkedOctet?_eq '.' (hpoint _), h₃.readMarkedOctet?_eq '.' (hpoint _),
    h₄.readMarkedOctet?_eq '.' hrest⟩

/-- What is taken off a text as a dotted address is one. -/
theorem read?_sound {cs rest : List Char} {a : V4} (h : read? cs = some (a, rest)) :
    ∃ text, cs = text ++ rest ∧ Spells text a := by
  obtain ⟨_, _, _, h₁, h₂, h₃, h₄⟩ := read?_eq_some_iff.1 h
  obtain ⟨_, rfl, h₂⟩ := readMarkedOctet?_eq_some_iff.1 h₂
  obtain ⟨_, rfl, h₃⟩ := readMarkedOctet?_eq_some_iff.1 h₃
  obtain ⟨_, rfl, h₄⟩ := readMarkedOctet?_eq_some_iff.1 h₄
  obtain ⟨o₁, rfl, ho₁, -⟩ := readOctet?_sound h₁
  obtain ⟨o₂, rfl, ho₂, -⟩ := readOctet?_sound h₂
  obtain ⟨o₃, rfl, ho₃, -⟩ := readOctet?_sound h₃
  obtain ⟨o₄, rfl, ho₄, -⟩ := readOctet?_sound h₄
  refine ⟨_, ?_, .octets ho₁ ho₂ ho₃ ho₄⟩
  simp only [List.append_assoc, List.cons_append]

/-- A text in which no point follows the digits at its front does not start with a dotted
address. -/
theorem read?_eq_none {cs : List Char} (h : ∀ c ∈ (cs.dropWhile Char.isDigit).head?, c ≠ '.') :
    read? cs = none := by
  refine Option.eq_none_iff_forall_ne_some.2 fun p hp => ?_
  obtain ⟨a, rest⟩ := p
  obtain ⟨_, _, _, h₁, h₂, -, -⟩ := read?_eq_some_iff.1 hp
  obtain ⟨_, -, -, hdrop⟩ := readOctet?_sound h₁
  obtain ⟨_, rfl, -⟩ := readMarkedOctet?_eq_some_iff.1 h₂
  exact h '.' (by rw [← hdrop]; rfl) rfl

end V4

/-! ## Telling groups from octets -/

/-- Behind the decimal digits at the front of a text stands one of its own characters or what
follows the text. -/
theorem head?_dropWhile_append {p : Char → Bool} {run rest : List Char}
    (hrest : ∀ c ∈ rest.head?, p c = false) :
    ∀ c ∈ ((run ++ rest).dropWhile p).head?, c ∈ run ∨ c ∈ rest.head? := by
  induction run with
  | nil =>
    have hdrop := (span_append (List.forall_mem_nil (p · = true)) hrest).2
    rw [List.nil_append] at hdrop
    rw [List.nil_append, hdrop]
    exact fun c hc => Or.inr hc
  | cons d run ih =>
    intro c hc
    rw [List.cons_append] at hc
    by_cases hd : p d = true
    · rw [List.dropWhile_cons_of_pos hd] at hc
      exact (ih c hc).imp_left (List.mem_cons_of_mem d)
    · rw [List.dropWhile_cons_of_neg hd] at hc
      obtain rfl := Option.some.inj hc
      exact Or.inl List.mem_cons_self

theorem isHexDigit_of_isDigit {c : Char} (h : c.isDigit = true) : isHexDigit c = true := by
  rw [Char.isDigit_iff_toNat] at h
  have hc : '0' ≤ c ∧ c ≤ '9' := h
  rw [isHexDigit, hexDigit?, if_pos hc]
  rfl

/-- A group does not start a dotted address. -/
theorem IsGroup.v4Read?_eq_none {cs : List Char} {g : UInt16} (h : IsGroup cs g) {rest : List Char}
    (hrest : EndsGroup rest) : V4.read? (cs ++ rest) = none := by
  apply V4.read?_eq_none
  intro c hc
  have hdigit : ∀ d ∈ rest.head?, d.isDigit = false := by
    intro d hd
    rw [Bool.eq_false_iff]
    intro hd'
    have hx := (hrest d hd).1
    rw [isHexDigit_of_isDigit hd'] at hx
    cases hx
  obtain hmem | hmem := head?_dropWhile_append hdigit c hc
  · rintro rfl
    cases h.isHexDigit '.' hmem
  · exact (hrest c hmem).2

/-! ## Parts of an address -/

namespace V6

/-- Groups with colons between them.  If the part may be `dotted`, an address in dotted decimal can
stand for the last two. -/
inductive IsJoined : Bool → List Char → List UInt16 → Prop where
  | group {dotted : Bool} {cs : List Char} {g : UInt16} : IsGroup cs g → IsJoined dotted cs [g]
  | dotted {cs : List Char} {a : V4} : V4.Spells cs a → IsJoined true cs a.groups
  | more {dotted : Bool} {cs rest : List Char} {g : UInt16} {groups : List UInt16} :
    IsGroup cs g → IsJoined dotted rest groups → IsJoined dotted (cs ++ ':' :: rest) (g :: groups)

/-- A part has no groups or joined ones. -/
inductive IsPart (dotted : Bool) : List Char → List UInt16 → Prop where
  | empty : IsPart dotted [] []
  | joined {cs : List Char} {groups : List UInt16} : IsJoined dotted cs groups →
    IsPart dotted cs groups

/-- Eight groups, or two parts around two colons, which stand for the zero groups between them. -/
inductive Spells : List Char → V6 → Prop where
  | whole {cs : List Char} {a : V6} : IsJoined true cs a.groups → Spells cs a
  | compressed {front back : List Char} {before after : List UInt16} {zeros : Nat} {a : V6} :
    IsPart false front before → IsPart true back after → 0 < zeros →
    a.groups = before ++ List.replicate zeros 0 ++ after →
    Spells (front ++ ':' :: ':' :: back) a

theorem IsJoined.dotted_of {dotted : Bool} {cs : List Char} {groups : List UInt16}
    (h : IsJoined dotted cs groups) : IsJoined true cs groups := by
  induction h with
  | group hg => exact .group hg
  | dotted ha => exact .dotted ha
  | more hg _ ih => exact .more hg ih

theorem IsPart.dotted_of {dotted : Bool} {cs : List Char} {groups : List UInt16}
    (h : IsPart dotted cs groups) : IsPart true cs groups := by
  cases h with
  | empty => exact .empty
  | joined h => exact .joined h.dotted_of

theorem IsPart.isJoined {dotted : Bool} {cs : List Char} {groups : List UInt16}
    (h : IsPart dotted cs groups) (hne : groups ≠ []) : IsJoined dotted cs groups := by
  cases h with
  | empty => exact absurd rfl hne
  | joined h => exact h

/-! ## What is taken off a text -/

theorem separated?_eq_some_iff {isFirst : Bool} {cs cs' : List Char} :
    separated? isFirst cs = some cs' ↔ cs = if isFirst then cs' else ':' :: cs' := by
  cases isFirst with
  | true => simp [separated?]
  | false =>
    cases cs with
    | nil => simp [separated?, skip?]
    | cons c cs =>
      by_cases hc : c = ':'
      · subst hc
        simp [separated?, skip?]
      · simp [separated?, skip?, hc]

/-- What stands in front of a text that a part leaves behind: nothing, or joined groups, after a
colon unless they are the first. -/
def Takes (isFirst : Bool) (cs : List Char) (part : Part) : Prop :=
  part.groups = [] ∧ part.dotted = false ∧ part.rest = cs ∨
    ∃ text, cs = (if isFirst then text else ':' :: text) ++ part.rest ∧
      IsJoined part.dotted text part.groups

/-- What the reader takes off a text is a part, and it has room for it. -/
theorem readPart_sound (room : Nat) (isFirst : Bool) (cs : List Char) :
    Takes isFirst cs (readPart room isFirst cs) ∧
      (readPart room isFirst cs).groups.length ≤ room := by
  induction room generalizing isFirst cs with
  | zero => exact ⟨Or.inl ⟨rfl, rfl, rfl⟩, Nat.le_refl 0⟩
  | succ room ih =>
    rw [readPart]
    dsimp only
    split
    · next a rest hdotted =>
      split at hdotted
      · cases hdotted
      · next hroom =>
        obtain ⟨cs', hcs, ha⟩ := Option.bind_eq_some_iff.1 hdotted
        obtain ⟨text, rfl, htext⟩ := V4.read?_sound ha
        refine ⟨Or.inr ⟨text, ?_, .dotted htext⟩, ?_⟩
        · rw [separated?_eq_some_iff.1 hcs]
          cases isFirst <;> rfl
        · show 2 ≤ room + 1
          omega
    · split
      · exact ⟨Or.inl ⟨rfl, rfl, rfl⟩, Nat.zero_le _⟩
      · next g rest hgroup =>
        obtain ⟨cs', hcs, hg⟩ := Option.bind_eq_some_iff.1 hgroup
        obtain ⟨digits, rfl, hdigits⟩ := readGroup?_sound hg
        obtain ⟨htakes, hlength⟩ := ih false rest
        refine ⟨Or.inr ?_, Nat.succ_le_succ hlength⟩
        rw [separated?_eq_some_iff.1 hcs]
        generalize readPart room false rest = part at htakes
        obtain ⟨hnil, hplain, hrest⟩ | ⟨text, hrest, hjoined⟩ := htakes
        · refine ⟨digits, ?_, ?_⟩
          · rw [hrest]
            cases isFirst <;> rfl
          · rw [hnil, hplain]
            exact .group hdigits
        · refine ⟨digits ++ ':' :: text, ?_, .more hdigits hjoined⟩
          rw [hrest]
          cases isFirst <;> simp

/-! ## What a part leaves behind -/

/-- The text ends, or two colons follow. -/
def Stops (rest : List Char) : Prop := rest = [] ∨ ∃ cs, rest = ':' :: ':' :: cs

theorem Stops.endsGroup {rest : List Char} (h : Stops rest) : EndsGroup rest := by
  obtain rfl | ⟨cs, rfl⟩ := h
  · exact endsGroup_nil
  · exact endsGroup_colon _

/-- No group is read where the text stops. -/
theorem readPart_stops (room : Nat) (isFirst : Bool) {rest : List Char} (hrest : Stops rest) :
    readPart room isFirst rest = ⟨[], false, rest⟩ := by
  cases room with
  | zero => rfl
  | succ room =>
    have hd : (separated? isFirst rest).bind V4.read? = none := by
      obtain rfl | ⟨cs, rfl⟩ := hrest <;> cases isFirst <;> rfl
    have hg : (separated? isFirst rest).bind readGroup? = none := by
      obtain rfl | ⟨cs, rfl⟩ := hrest <;> cases isFirst <;> rfl
    rw [readPart, hd, hg, ite_self]

/-- One group is read, and the others after it. -/
theorem readPart_group (room : Nat) {isFirst : Bool} {cs digits rest : List Char} {g : UInt16}
    (hg : IsGroup digits g) (hcs : separated? isFirst cs = some (digits ++ rest))
    (hrest : EndsGroup rest) :
    readPart (room + 1) isFirst cs =
      ⟨g :: (readPart room false rest).groups, (readPart room false rest).dotted,
        (readPart room false rest).rest⟩ := by
  rw [readPart, hcs, Option.bind_some, Option.bind_some, hg.v4Read?_eq_none hrest,
    hg.readGroup?_eq hrest, ite_self]

/-- Joined groups are taken off as a whole where the text stops; behind dotted decimal it has to
end. -/
theorem IsJoined.readPart_eq {dotted : Bool} {text : List Char} {groups : List UInt16}
    (h : IsJoined dotted text groups) {room : Nat} (hroom : groups.length ≤ room)
    {rest : List Char} (hrest : Stops rest) (hend : dotted = true → rest = []) {isFirst : Bool}
    {cs : List Char} (hcs : separated? isFirst cs = some (text ++ rest)) :
    ∃ d, readPart room isFirst cs = ⟨groups, d, rest⟩ ∧ (dotted = false → d = false) := by
  induction h generalizing room isFirst cs with
  | group hg =>
    obtain ⟨room, rfl⟩ : ∃ k, room = k + 1 := ⟨room - 1, by simp at hroom; omega⟩
    refine ⟨false, ?_, fun _ => rfl⟩
    rw [readPart_group room hg hcs hrest.endsGroup, readPart_stops room false hrest]
  | @dotted digits a ha =>
    obtain rfl := hend rfl
    obtain ⟨room, rfl⟩ : ∃ k, room = k + 2 := ⟨room - 2, by simp [V4.groups] at hroom; omega⟩
    refine ⟨true, ?_, nofun⟩
    have hstop : ∀ c ∈ ([] : List Char).head?, c.isDigit = false := by rintro c ⟨⟩
    rw [readPart, hcs, Option.bind_some, ha.read?_eq hstop]
    rfl
  | @more dotted digits more g groups hg _ ih =>
    obtain ⟨room, rfl⟩ : ∃ k, room = k + 1 := ⟨room - 1, by simp at hroom; omega⟩
    rw [List.append_assoc, List.cons_append] at hcs
    have hmore : separated? false (':' :: (more ++ rest)) = some (more ++ rest) := rfl
    obtain ⟨d, hread, hd⟩ := ih (Nat.le_of_succ_le_succ hroom) hend hmore
    refine ⟨d, ?_, hd⟩
    rw [readPart_group room hg hcs (endsGroup_colon _), hread]

/-- A part is taken off as a whole where the text stops. -/
theorem IsPart.readPart_eq {dotted : Bool} {text : List Char} {groups : List UInt16}
    (h : IsPart dotted text groups) {room : Nat} (hroom : groups.length ≤ room)
    {rest : List Char} (hrest : Stops rest) (hend : dotted = true → rest = []) :
    ∃ d, readPart room true (text ++ rest) = ⟨groups, d, rest⟩ ∧ (dotted = false → d = false) := by
  cases h with
  | empty => exact ⟨false, readPart_stops room true hrest, fun _ => rfl⟩
  | joined h => exact h.readPart_eq hroom hrest hend rfl

/-! ## Whole addresses -/

theorem ofGroups?_eq_some_iff {groups : List UInt16} {a : V6} :
    ofGroups? groups = some a ↔ groups = a.groups := by
  obtain ⟨own, hown⟩ := a
  unfold ofGroups?
  split
  · simp
  · next hlength =>
    refine iff_of_false (by simp) ?_
    rintro rfl
    exact hlength hown

theorem ofGroups?_eq_none {groups : List UInt16} (h : groups.length ≠ 8) :
    ofGroups? groups = none := by
  rw [ofGroups?, dif_neg h]

theorem isPart_of_takes {cs : List Char} {part : Part} (h : Takes true cs part) :
    ∃ text, cs = text ++ part.rest ∧ IsPart part.dotted text part.groups := by
  obtain ⟨hnil, -, hrest⟩ | ⟨text, hcs, hjoined⟩ := h
  · refine ⟨[], hrest.symm, ?_⟩
    rw [hnil]
    exact .empty
  · exact ⟨text, hcs, .joined hjoined⟩

theorem skip?_eq_some_iff {mark : Char} {cs rest : List Char} :
    skip? mark cs = some rest ↔ cs = mark :: rest := by
  cases cs with
  | nil => simp [skip?]
  | cons c cs => simp [skip?]

theorem groups_ne_nil (a : V6) : a.groups ≠ [] := by
  intro h
  have hlength := a.length_groups
  rw [h] at hlength
  cases hlength

/-- What is read as an address is the text of one. -/
theorem spells_of_read? {cs : List Char} {a : V6} (h : read? cs = some (a, [])) : Spells cs a := by
  obtain ⟨hhead, hlength⟩ := readPart_sound 8 true cs
  unfold read? at h
  generalize readPart 8 true cs = head at h hhead hlength
  obtain ⟨before, dotted, rest⟩ := head
  obtain ⟨front, rfl, hfront⟩ := isPart_of_takes hhead
  dsimp only at h hfront hlength
  split at h
  · next b hwhole =>
    obtain ⟨rfl, rfl⟩ := Prod.mk.inj (Option.some.inj h)
    obtain rfl := ofGroups?_eq_some_iff.1 hwhole
    rw [List.append_nil]
    exact .whole (hfront.isJoined b.groups_ne_nil).dotted_of
  · next hnone =>
    have hne : before.length ≠ 8 := by
      intro height
      rw [ofGroups?, dif_pos height] at hnone
      cases hnone
    split at h
    · cases h
    · next hplain =>
      simp only [Option.bind_eq_bind, Option.bind_eq_some_iff, skip?_eq_some_iff, Option.pure_def,
        Option.some.injEq, Prod.mk.injEq, ofGroups?_eq_some_iff] at h
      obtain ⟨_, rfl, back, rfl, b, hgroups, rfl, hrest⟩ := h
      obtain ⟨htail, hroom⟩ := readPart_sound (7 - before.length) true back
      generalize readPart (7 - before.length) true back = tail at htail hroom hgroups hrest
      obtain ⟨after, _, rest⟩ := tail
      obtain ⟨text, rfl, hback⟩ := isPart_of_takes htail
      obtain rfl := hrest
      obtain rfl : dotted = false := Bool.eq_false_iff.2 hplain
      have hzeros : 0 < 8 - before.length - after.length := by
        have hafter : after.length ≤ 7 - before.length := hroom
        omega
      rw [List.append_nil]
      exact .compressed hfront hback.dotted_of hzeros hgroups.symm

/-- The text of an address is read as it. -/
theorem Spells.read?_eq {cs : List Char} {a : V6} (h : Spells cs a) : read? cs = some (a, []) := by
  unfold read?
  cases h with
  | whole h =>
    have hfirst : separated? true cs = some (cs ++ []) := by
      rw [List.append_nil]
      rfl
    obtain ⟨d, hread, -⟩ :=
      h.readPart_eq (Nat.le_of_eq a.length_groups) (Or.inl rfl) (fun _ => rfl) hfirst
    rw [hread]
    dsimp only
    rw [ofGroups?_eq_some_iff.2 rfl]
  | @compressed front back before after zeros _ hfront hback hzeros hgroups =>
    have hlength : before.length + zeros + after.length = 8 := by
      rw [← a.length_groups, hgroups, List.length_append, List.length_append,
        List.length_replicate]
    have hzeros' : 8 - before.length - after.length = zeros := by omega
    have hroom : before.length ≤ 8 := by omega
    have hroom' : after.length ≤ 7 - before.length := by omega
    have hstop : Stops (':' :: ':' :: back) := Or.inr ⟨back, rfl⟩
    obtain ⟨d, hhead, hplain⟩ := hfront.readPart_eq hroom hstop nofun
    obtain ⟨_, htail, -⟩ := hback.readPart_eq hroom' (Or.inl rfl) fun _ => rfl
    rw [List.append_nil] at htail
    rw [hhead, hplain rfl]
    dsimp only
    rw [ofGroups?_eq_none (by omega)]
    simp only [Bool.false_eq_true, if_false, skip?, if_true, Option.bind_eq_bind, Option.bind_some]
    rw [htail]
    dsimp only
    rw [hzeros', ofGroups?_eq_some_iff.2 hgroups.symm]
    rfl

/-- Where more than two groups are joined, or none of them in dotted decimal, the text does not
start with a dotted address. -/
theorem IsJoined.v4Read?_eq_none {dotted : Bool} {text : List Char} {groups : List UInt16}
    (h : IsJoined dotted text groups) (hd : dotted = false ∨ 2 < groups.length) {rest : List Char}
    (hrest : EndsGroup rest) : V4.read? (text ++ rest) = none := by
  cases h with
  | group hg => exact hg.v4Read?_eq_none hrest
  | dotted ha =>
    obtain hd | hd := hd
    · cases hd
    · exact absurd hd (by simp [V4.groups])
  | more hg _ =>
    rw [List.append_assoc]
    exact hg.v4Read?_eq_none (endsGroup_colon _)

/-- The text of an IPv6 address does not start with a dotted address. -/
theorem Spells.v4Read?_eq_none {cs : List Char} {a : V6} (h : Spells cs a) :
    V4.read? cs = none := by
  cases h with
  | whole h =>
    have hlength : 2 < a.groups.length := by
      rw [a.length_groups]
      decide
    have hnone := h.v4Read?_eq_none (Or.inr hlength) endsGroup_nil
    rwa [List.append_nil] at hnone
  | compressed hfront _ _ _ =>
    cases hfront with
    | empty => rfl
    | joined h => exact h.v4Read?_eq_none (Or.inl rfl) (endsGroup_colon _)

end V6

/-- The text of an address of either family. -/
inductive Spells : List Char → Address → Prop where
  | v4 {cs : List Char} {a : V4} : V4.Spells cs a → Spells cs (v4 a)
  | v6 {cs : List Char} {a : V6} : V6.Spells cs a → Spells cs (v6 a)

theorem parse?_eq_some_iff_read? {cs : List Char} {a : Address} :
    parse? cs = some a ↔ read? cs = some (a, []) := by
  unfold parse?
  split
  · next b hread =>
    rw [hread]
    simp
  · next hread =>
    refine iff_of_false (by simp) fun h => hread a h

/-- The reader accepts exactly the texts of addresses. -/
theorem parse?_eq_some_iff {cs : List Char} {a : Address} : parse? cs = some a ↔ Spells cs a := by
  rw [parse?_eq_some_iff_read?]
  unfold read?
  constructor
  · intro h
    split at h
    · next b rest hv4 =>
      obtain ⟨rfl, rfl⟩ := Prod.mk.inj (Option.some.inj h)
      obtain ⟨text, rfl, htext⟩ := V4.read?_sound hv4
      rw [List.append_nil]
      exact .v4 htext
    · obtain ⟨⟨b, rest⟩, hv6, e⟩ := Option.map_eq_some_iff.1 h
      obtain ⟨rfl, rfl⟩ := Prod.mk.inj e
      exact .v6 (V6.spells_of_read? hv6)
  · rintro (hv4 | hv6)
    · have hstop : ∀ c ∈ ([] : List Char).head?, c.isDigit = false := by rintro c ⟨⟩
      have hread := hv4.read?_eq hstop
      rw [List.append_nil] at hread
      rw [hread]
    · rw [hv6.v4Read?_eq_none, hv6.read?_eq]
      rfl

/-! ## The characters of addresses -/

/-- The characters that occur in addresses. -/
def IsAddressChar (c : Char) : Prop := isHexDigit c = true ∨ c = '.' ∨ c = ':'

theorem IsOctet.isAddressChar {cs : List Char} {n : UInt8} (h : IsOctet cs n) :
    ∀ c ∈ cs, IsAddressChar c := fun c hc => Or.inl (isHexDigit_of_isDigit (h.isDigit c hc))

theorem V4.Spells.isAddressChar {cs : List Char} {a : V4} (h : V4.Spells cs a) :
    ∀ c ∈ cs, IsAddressChar c := by
  obtain ⟨h₁, h₂, h₃, h₄⟩ := h
  have hpoint : IsAddressChar '.' := Or.inr (Or.inl rfl)
  intro c hc
  simp only [List.mem_append, List.mem_cons] at hc
  rcases hc with hc | rfl | hc | rfl | hc | rfl | hc
  · exact h₁.isAddressChar c hc
  · exact hpoint
  · exact h₂.isAddressChar c hc
  · exact hpoint
  · exact h₃.isAddressChar c hc
  · exact hpoint
  · exact h₄.isAddressChar c hc

theorem V6.IsJoined.isAddressChar {dotted : Bool} {cs : List Char} {groups : List UInt16}
    (h : V6.IsJoined dotted cs groups) : ∀ c ∈ cs, IsAddressChar c := by
  induction h with
  | group hg => exact fun c hc => Or.inl (hg.isHexDigit c hc)
  | dotted ha => exact ha.isAddressChar
  | more hg _ ih =>
    intro c hc
    rw [List.mem_append, List.mem_cons] at hc
    rcases hc with hc | rfl | hc
    · exact Or.inl (hg.isHexDigit c hc)
    · exact Or.inr (Or.inr rfl)
    · exact ih c hc

theorem V6.IsPart.isAddressChar {dotted : Bool} {cs : List Char} {groups : List UInt16}
    (h : V6.IsPart dotted cs groups) : ∀ c ∈ cs, IsAddressChar c := by
  cases h with
  | empty => exact List.forall_mem_nil _
  | joined h => exact h.isAddressChar

theorem Spells.isAddressChar {cs : List Char} {a : Address} (h : Spells cs a) :
    ∀ c ∈ cs, IsAddressChar c := by
  rcases h with h | (h | ⟨hfront, hback, -, -⟩)
  · exact h.isAddressChar
  · exact h.isAddressChar
  · intro c hc
    simp only [List.mem_append, List.mem_cons] at hc
    rcases hc with hc | rfl | rfl | hc
    · exact hfront.isAddressChar c hc
    · exact Or.inr (Or.inr rfl)
    · exact Or.inr (Or.inr rfl)
    · exact hback.isAddressChar c hc

/-- The mark before a prefix length does not occur in addresses. -/
theorem Spells.slash_notMem {cs : List Char} {a : Address} (h : Spells cs a) : '/' ∉ cs := by
  intro hmem
  obtain hhex | hpoint | hcolon := h.isAddressChar '/' hmem
  · cases hhex
  · cases hpoint
  · cases hcolon

end WirelessArchive.Address
