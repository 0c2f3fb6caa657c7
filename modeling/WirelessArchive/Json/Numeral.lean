import WirelessArchive.Json.Fault
import WirelessArchive.Json.Feed
import WirelessArchive.Json.Value

/-!
# Number text

The grammar of numbers as a machine over bytes (`Phase`), and the value that is gathered along the
way (`Tally`).

The significand takes digits as long as it fits 64 bits.  Digits beyond that are dropped: those of
the integer part raise the power of ten, those of the fraction change nothing.  A number without
fraction and exponent is an integer if 64 bits hold it.
-/

namespace WirelessArchive.Json

/-! ## Grammar -/

/-- The bytes that occur in numbers. -/
inductive Symbol where
  | digit (value : Nat)
  | plus
  | minus
  | point
  | exponentMark
  | other
  deriving DecidableEq, Repr

/-- What a byte is within a number. -/
def Symbol.ofByte (b : UInt8) : Symbol :=
  if 0x30 ≤ b ∧ b ≤ 0x39 then digit (b.toNat - 0x30)
  else if b = 0x2B then plus
  else if b = 0x2D then minus
  else if b = 0x2E then point
  else if b = 0x65 ∨ b = 0x45 then exponentMark
  else other

/-- How much of a number has been read. -/
inductive Phase where
  /-- The minus sign. -/
  | sign
  /-- A zero that is the whole integer part. -/
  | zero
  /-- Digits of the integer part. -/
  | whole
  /-- The decimal point. -/
  | point
  /-- Digits of the fraction. -/
  | fraction
  /-- The mark of the exponent. -/
  | mark
  /-- The sign of the exponent. -/
  | markSign
  /-- Digits of the exponent. -/
  | exponent
  deriving DecidableEq, Repr

/-- What a symbol means for the number read so far. -/
inductive Move where
  | go (phase : Phase)
  /-- The number is complete and the symbol does not belong to it. -/
  | complete
  /-- No number goes on like this. -/
  | wrong
  deriving DecidableEq, Repr

namespace Phase

/-- The grammar: no digit follows a leading zero, and the point and the exponent mark need a
digit. -/
def next : Phase → Symbol → Move
  | sign, .digit d => .go (if d = 0 then zero else whole)
  | sign, _ => .wrong
  | zero, .digit _ => .wrong
  | zero, .point => .go point
  | zero, .exponentMark => .go mark
  | zero, _ => .complete
  | whole, .digit _ => .go whole
  | whole, .point => .go point
  | whole, .exponentMark => .go mark
  | whole, _ => .complete
  | point, .digit _ => .go fraction
  | point, _ => .wrong
  | fraction, .digit _ => .go fraction
  | fraction, .exponentMark => .go mark
  | fraction, _ => .complete
  | mark, .digit _ => .go exponent
  | mark, .plus => .go markSign
  | mark, .minus => .go markSign
  | mark, _ => .wrong
  | markSign, .digit _ => .go exponent
  | markSign, _ => .wrong
  | exponent, .digit _ => .go exponent
  | exponent, _ => .complete

/-- Whether a number may end here. -/
def isComplete : Phase → Bool
  | zero | whole | fraction | exponent => true
  | sign | point | mark | markSign => false

/-- The phase after the first byte of a number, if it starts one. -/
def start? (b : UInt8) : Option Phase :=
  match Symbol.ofByte b with
  | .minus => some sign
  | .digit d => some (if d = 0 then zero else whole)
  | _ => none

end Phase

/-! ## Value -/

/-- What has been gathered of a number. -/
structure Tally where
  negative : Bool := false
  significand : Nat := 0
  /-- The power of ten of the last digit that was taken. -/
  scale : Int := 0
  /-- The significand takes no further digit of this part of the number. -/
  full : Bool := false
  exponentNegative : Bool := false
  exponent : Nat := 0
  /-- The exponent is too large for 32 bits and the number is zero all the same. -/
  vanished : Bool := false
  deriving DecidableEq, Repr

namespace Tally

/-- Takes a digit of the integer part. -/
def wholeDigit (t : Tally) (d : Nat) : Tally :=
  if t.full then { t with scale := t.scale + 1 }
  else if t.significand * 10 + d < 0x10000000000000000 then
    { t with significand := t.significand * 10 + d }
  else { t with full := true, scale := t.scale + 1 }

/-- Takes a digit of the fraction. -/
def fractionDigit (t : Tally) (d : Nat) : Tally :=
  if t.full then t
  else if t.significand * 10 + d < 0x10000000000000000 then
    { t with significand := t.significand * 10 + d, scale := t.scale - 1 }
  else { t with full := true }

/-- Takes a digit of the exponent, unless the number gets too large by it. -/
def exponentDigit? (t : Tally) (d : Nat) : Option Tally :=
  if t.vanished then some t
  else if t.exponent * 10 + d < 0x80000000 then some { t with exponent := t.exponent * 10 + d }
  else if t.significand ≠ 0 ∧ t.exponentNegative = false then none
  else some { t with vanished := true }

/-- Takes a symbol that leads to a phase, unless the number gets too large by it. -/
def take? (t : Tally) (phase : Phase) (symbol : Symbol) : Option Tally :=
  match phase, symbol with
  | .zero, .digit d => some (t.wholeDigit d)
  | .whole, .digit d => some (t.wholeDigit d)
  | .point, _ => some { t with full := false }
  | .fraction, .digit d => some (t.fractionDigit d)
  | .markSign, .minus => some { t with exponentNegative := true }
  | .exponent, .digit d => t.exponentDigit? d
  | _, _ => some t

/-- A power of ten, up to the largest that a float holds. -/
def powerOfTen (n : Nat) : Float := Float.ofScientific 1 false n

/-- Divides by the largest power of ten that a float holds, a number of times or until nothing is
left. -/
def divideRepeatedly (x : Float) : Nat → Float
  | 0 => x
  | steps + 1 => if x == 0.0 then x else divideRepeatedly (x / powerOfTen 308) steps

/-- Divides by a positive power of ten, in steps that a float can hold. -/
def divideByPower (x : Float) (n : Nat) : Float :=
  let steps := (n - 1) / 308
  divideRepeatedly x steps / powerOfTen (n - 308 * steps)

/-- Multiplies by a power of ten, if the result is finite. -/
def multiplyByPower? (x : Float) (n : Nat) : Option Float :=
  if 308 < n then
    if x == 0.0 then some x else none
  else
    let y := x * powerOfTen n
    if y.isInf then none else some y

/-- The power of ten of the significand. -/
def power (t : Tally) : Int :=
  if t.exponentNegative then t.scale - t.exponent else t.scale + t.exponent

/-- The magnitude of the number as a float, if it is finite. -/
def magnitude? (t : Tally) : Option Float :=
  if t.vanished then some 0.0
  else
    let x := Nat.toFloat t.significand
    match t.power with
    | .ofNat n => multiplyByPower? x n
    | .negSucc n => some (divideByPower x (n + 1))

/-- A number of the sign that was read. -/
def signed (t : Tally) (x : Float) : Number := .float (if t.negative then -x else x)

/-- The integer that was read; zero with a minus sign, and what 64 bits cannot hold, are floats. -/
def integerValue (t : Tally) : Number :=
  if t.negative then
    if h : 0 < t.significand ∧ t.significand ≤ 0x8000000000000000 then
      .integer (-t.significand) ⟨by omega, by omega⟩
    else t.signed (Nat.toFloat t.significand)
  else if h : t.significand < 0x10000000000000000 then
    .integer t.significand ⟨by omega, by omega⟩
  else t.signed (Nat.toFloat t.significand)

/-- The number that was read, if it is in range. -/
def value? (t : Tally) (phase : Phase) : Option Number :=
  if (phase = .zero ∨ phase = .whole) ∧ t.full = false then some t.integerValue
  else t.magnitude?.map t.signed

end Tally

/-! ## The machine -/

/-- A number that is being read. -/
structure Numeral where
  phase : Phase
  tally : Tally
  deriving DecidableEq, Repr

namespace Numeral

/-- A number of which the first byte has been read. -/
def start? (b : UInt8) : Option Numeral :=
  match Symbol.ofByte b with
  | .minus => some ⟨.sign, { negative := true }⟩
  | .digit d => some ⟨if d = 0 then .zero else .whole, { significand := d }⟩
  | _ => none

/-- The number if it ends here. -/
def finish (n : Numeral) : Except Fault Number :=
  if n.phase.isComplete then
    match n.tally.value? n.phase with
    | some value => .ok value
    | none => .error .numberOutOfRange
  else .error .endInValue

/-- Reads a byte.  A number whose value is out of range is refused before the byte that follows
it; an exponent that runs over is refused at once. -/
def step (n : Numeral) (b : UInt8) : Progress Numeral Number Fault :=
  let symbol := Symbol.ofByte b
  match n.phase.next symbol with
  | .wrong => .halt ⟨.invalidNumber, true⟩
  | .complete =>
    match n.finish with
    | .ok value => .before value
    | .error fault => .halt ⟨fault, false⟩
  | .go phase =>
    match n.tally.take? phase symbol with
    | some tally => .more ⟨phase, tally⟩
    | none => .halt ⟨.numberOutOfRange, true⟩

end Numeral

end WirelessArchive.Json
