/-!
# IPv4 addresses

Four octets in dotted decimal.  The notation is strict: every octet has one to three digits and no
leading zero, so each address has exactly one text.
-/

namespace WirelessArchive.Address

/-- An IPv4 address. -/
structure V4 where
  first : UInt8
  second : UInt8
  third : UInt8
  fourth : UInt8
  deriving DecidableEq, Repr

/-- The rest of a text after the character `mark`, if it starts with it. -/
def skip? (mark : Char) : List Char → Option (List Char)
  | [] => none
  | c :: cs => if c = mark then some cs else none

/-- The decimal digits of an octet. -/
def octetChars (n : UInt8) : List Char := Nat.toDigits 10 n.toNat

/-- An octet at the front of a text, and the rest.  All digits at the front belong to it. -/
def readOctet? (cs : List Char) : Option (UInt8 × List Char) :=
  let digits := cs.takeWhile Char.isDigit
  let value := Nat.ofDigitChars 10 digits 0
  if digits = [] ∨ 3 < digits.length ∨ (digits.head? = some '0' ∧ digits.length ≠ 1) ∨ 255 < value then
    none
  else
    some (UInt8.ofNat value, cs.dropWhile Char.isDigit)

/-- An octet after `mark`. -/
def readMarkedOctet? (mark : Char) (cs : List Char) : Option (UInt8 × List Char) :=
  (skip? mark cs).bind readOctet?

namespace V4

/-- The characters of the dotted notation. -/
def toChars (a : V4) : List Char :=
  octetChars a.first ++ '.' :: (octetChars a.second ++ '.' :: (octetChars a.third ++
    '.' :: octetChars a.fourth))

/-- An address at the front of a text, and the rest. -/
def read? (cs : List Char) : Option (V4 × List Char) := do
  let (first, cs) ← readOctet? cs
  let (second, cs) ← readMarkedOctet? '.' cs
  let (third, cs) ← readMarkedOctet? '.' cs
  let (fourth, cs) ← readMarkedOctet? '.' cs
  return (⟨first, second, third, fourth⟩, cs)

/-- The address as two groups of sixteen bits. -/
def groups (a : V4) : List UInt16 :=
  [a.first.toUInt16 * 256 + a.second.toUInt16, a.third.toUInt16 * 256 + a.fourth.toUInt16]

/-- The address whose groups are `high` and `low`. -/
def ofGroups (high low : UInt16) : V4 :=
  ⟨(high / 256).toUInt8, high.toUInt8, (low / 256).toUInt8, low.toUInt8⟩

end V4

end WirelessArchive.Address
