/-!
# The language of JSON

The grammar of JSON texts, independent of any reader.  A rule `X t r` says that the text `t` starts
with an `X` and that `r` is what follows it; a text is JSON if one value, with white space around
it, is all of it (`IsText`).  The grammar is written over bytes: in a text of UTF-8 the bytes from
`0x80` on belong to characters that strings hold as they are.
-/

namespace WirelessArchive.Json.Language

/-! ## White space and numbers -/

/-- Any amount of white space. -/
inductive Blanks : List UInt8 → List UInt8 → Prop where
  | nil (t : List UInt8) : Blanks t t
  | cons {b : UInt8} {t r : List UInt8} : b ∈ [0x20, 0x09, 0x0A, 0x0D] → Blanks t r →
    Blanks (b :: t) r

/-- A decimal digit. -/
def IsDigit (b : UInt8) : Prop := 0x30 ≤ b ∧ b ≤ 0x39

/-- Any number of digits. -/
inductive Digits : List UInt8 → List UInt8 → Prop where
  | nil (t : List UInt8) : Digits t t
  | cons {b : UInt8} {t r : List UInt8} : IsDigit b → Digits t r → Digits (b :: t) r

/-- A digit and any number of others. -/
inductive Numerals : List UInt8 → List UInt8 → Prop where
  | cons {b : UInt8} {t r : List UInt8} : IsDigit b → Digits t r → Numerals (b :: t) r

/-- The integer part of a number: zero, or digits that do not start with zero. -/
inductive Whole : List UInt8 → List UInt8 → Prop where
  | zero (r : List UInt8) : Whole (0x30 :: r) r
  | digits {b : UInt8} {t r : List UInt8} : IsDigit b → b ≠ 0x30 → Digits t r → Whole (b :: t) r

/-- The fraction of a number, if there is one. -/
inductive Fraction : List UInt8 → List UInt8 → Prop where
  | none (t : List UInt8) : Fraction t t
  | some {t r : List UInt8} : Numerals t r → Fraction (0x2E :: t) r

/-- The exponent behind its mark. -/
inductive Power : List UInt8 → List UInt8 → Prop where
  | unsigned {t r : List UInt8} : Numerals t r → Power t r
  | signed {b : UInt8} {t r : List UInt8} : b = 0x2B ∨ b = 0x2D → Numerals t r → Power (b :: t) r

/-- The exponent of a number, if there is one. -/
inductive Exponent : List UInt8 → List UInt8 → Prop where
  | none (t : List UInt8) : Exponent t t
  | some {b : UInt8} {t r : List UInt8} : b = 0x65 ∨ b = 0x45 → Power t r → Exponent (b :: t) r

/-- A number without its sign. -/
inductive Magnitude : List UInt8 → List UInt8 → Prop where
  | mk {t u v r : List UInt8} : Whole t u → Fraction u v → Exponent v r → Magnitude t r

/-- A number. -/
inductive Number : List UInt8 → List UInt8 → Prop where
  | positive {t r : List UInt8} : Magnitude t r → Number t r
  | negative {t r : List UInt8} : Magnitude t r → Number (0x2D :: t) r

/-! ## Strings -/

/-- A hexadecimal digit. -/
def IsHexDigit (b : UInt8) : Prop :=
  IsDigit b ∨ 0x41 ≤ b ∧ b ≤ 0x46 ∨ 0x61 ≤ b ∧ b ≤ 0x66

/-- A number of hexadecimal digits. -/
inductive HexDigits : Nat → List UInt8 → List UInt8 → Prop where
  | nil (t : List UInt8) : HexDigits 0 t t
  | cons {n : Nat} {b : UInt8} {t r : List UInt8} : IsHexDigit b → HexDigits n t r →
    HexDigits (n + 1) (b :: t) r

/-- The characters of a string and its closing quotation mark. -/
inductive Characters : List UInt8 → List UInt8 → Prop where
  | close (r : List UInt8) : Characters (0x22 :: r) r
  | plain {b : UInt8} {t r : List UInt8} : 0x20 ≤ b → b ≠ 0x22 → b ≠ 0x5C → Characters t r →
    Characters (b :: t) r
  | escape {b : UInt8} {t r : List UInt8} :
    b ∈ [0x22, 0x5C, 0x2F, 0x62, 0x66, 0x6E, 0x72, 0x74] → Characters t r →
    Characters (0x5C :: b :: t) r
  | unicode {t u r : List UInt8} : HexDigits 4 t u → Characters u r →
    Characters (0x5C :: 0x75 :: t) r

/-! ## Values -/

mutual

/-- A value. -/
inductive Value : List UInt8 → List UInt8 → Prop where
  | null (r : List UInt8) : Value (0x6E :: 0x75 :: 0x6C :: 0x6C :: r) r
  | yes (r : List UInt8) : Value (0x74 :: 0x72 :: 0x75 :: 0x65 :: r) r
  | no (r : List UInt8) : Value (0x66 :: 0x61 :: 0x6C :: 0x73 :: 0x65 :: r) r
  | number {t r : List UInt8} : Number t r → Value t r
  | string {t r : List UInt8} : Characters t r → Value (0x22 :: t) r
  | emptyArray {t r : List UInt8} : Blanks t (0x5D :: r) → Value (0x5B :: t) r
  | array {t r : List UInt8} : Elements t (0x5D :: r) → Value (0x5B :: t) r
  | emptyObject {t r : List UInt8} : Blanks t (0x7D :: r) → Value (0x7B :: t) r
  | object {t r : List UInt8} : Members t (0x7D :: r) → Value (0x7B :: t) r

/-- A value with white space around it. -/
inductive Element : List UInt8 → List UInt8 → Prop where
  | mk {t u v r : List UInt8} : Blanks t u → Value u v → Blanks v r → Element t r

/-- Elements between commas. -/
inductive Elements : List UInt8 → List UInt8 → Prop where
  | last {t r : List UInt8} : Element t r → Elements t r
  | more {t u r : List UInt8} : Element t (0x2C :: u) → Elements u r → Elements t r

/-- A key, a colon and an element. -/
inductive Member : List UInt8 → List UInt8 → Prop where
  | mk {t u v w r : List UInt8} : Blanks t (0x22 :: u) → Characters u v → Blanks v (0x3A :: w) →
    Element w r → Member t r

/-- Members between commas. -/
inductive Members : List UInt8 → List UInt8 → Prop where
  | last {t r : List UInt8} : Member t r → Members t r
  | more {t u r : List UInt8} : Member t (0x2C :: u) → Members u r → Members t r

end

/-- The text is JSON: one value with white space around it. -/
def IsText (text : List UInt8) : Prop := Element text []

end WirelessArchive.Json.Language
