/-!
# Decimal integers

Reading a natural number in ASCII digits.  The reader is the lenient one of version texts and
prefix lengths: one `+` may stand in front and leading zeros are allowed.  It reads back what
`Nat.toDigits 10` writes (`parse?_toDigits`).
-/

namespace WirelessArchive.Text.Decimal

/-- A numeral without its optional `+`. -/
def unsigned : List Char → List Char
  | '+' :: digits => digits
  | digits => digits

/-- A number below `limit`, written as an optional `+` and at least one digit. -/
def parse? (limit : Nat) (cs : List Char) : Option Nat :=
  let digits := unsigned cs
  let value := Nat.ofDigitChars 10 digits 0
  if digits ≠ [] ∧ digits.all Char.isDigit ∧ value < limit then some value else none

theorem all_isDigit_toDigits (n : Nat) : (Nat.toDigits 10 n).all Char.isDigit = true :=
  List.all_eq_true.2 fun _ h => Nat.isDigit_of_mem_toDigits (by decide) (by decide) h

/-- A numeral that starts with a digit has no sign to take off. -/
theorem unsigned_of_all_isDigit {cs : List Char} (h : cs.all Char.isDigit = true) :
    unsigned cs = cs := by
  unfold unsigned
  split
  · simp at h
  · rfl

/-- The reader gives back a number that was written in digits. -/
theorem parse?_toDigits {limit n : Nat} (h : n < limit) :
    parse? limit (Nat.toDigits 10 n) = some n := by
  have hd := all_isDigit_toDigits n
  simp [parse?, unsigned_of_all_isDigit hd, hd,
    Nat.ofDigitChars_toDigits (by decide : 1 < 10) (by decide), h]

end WirelessArchive.Text.Decimal
