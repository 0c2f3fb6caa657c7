/-!
# The shortest decimal that reads back

A finite binary floating-point number stands for every real number that rounds to it.  Its text is
the decimal on the coarsest power-of-ten grid that meets this interval; of two such decimals the one
nearer to the number, and of two equally near ones the one with the even coefficient.

All arithmetic is exact, over natural numbers.
-/

namespace WirelessArchive.Text

/-- The decimal `coefficient * 10 ^ exponent`. -/
structure Scientific where
  coefficient : Nat
  exponent : Int
  deriving DecidableEq, Repr

/-- A positive rational number with the interval of those that round to it: the four numbers share
one denominator.  Both ends belong to the interval when `closed` holds. -/
structure Rounded where
  low : Nat
  value : Nat
  high : Nat
  denominator : Nat
  closed : Bool
  deriving Repr

namespace Rounded

/-- The number `mantissa * 2 ^ exponent` among numbers of that precision.  At the lower end of a
binade the gap below is half the gap above, and `binadeStart` says so. -/
def ofBinary (mantissa : Nat) (exponent : Int) (binadeStart : Bool) : Rounded :=
  let scale := Nat.pow 2 (exponent - 2).toNat
  { low := (4 * mantissa - if binadeStart then 1 else 2) * scale
    value := 4 * mantissa * scale
    high := (4 * mantissa + 2) * scale
    denominator := Nat.pow 2 (2 - exponent).toNat
    closed := mantissa % 2 == 0 }

/-- Whether `coefficient * 10 ^ exponent` rounds to the number. -/
def contains (r : Rounded) (d : Scientific) : Bool :=
  let point := d.coefficient * Nat.pow 10 d.exponent.toNat * r.denominator
  let unit := Nat.pow 10 (-d.exponent).toNat
  if r.closed then r.low * unit ≤ point && point ≤ r.high * unit
  else r.low * unit < point && point < r.high * unit

/-- The two neighbours of the number on the grid of the multiples of `10 ^ exponent`. -/
def neighbours (r : Rounded) (exponent : Int) : Scientific × Scientific :=
  let below :=
    r.value * Nat.pow 10 (-exponent).toNat / (r.denominator * Nat.pow 10 exponent.toNat)
  (⟨below, exponent⟩, ⟨below + 1, exponent⟩)

/-- The distance between a decimal and the number, in units that depend only on the exponent. -/
def distance (r : Rounded) (d : Scientific) : Nat :=
  let point := d.coefficient * Nat.pow 10 d.exponent.toNat * r.denominator
  let value := r.value * Nat.pow 10 (-d.exponent).toNat
  (point - value) + (value - point)

/-- The decimal of this grid that stands for the number, if the grid has one. -/
def onGrid? (r : Rounded) (exponent : Int) : Option Scientific :=
  let (below, above) := r.neighbours exponent
  match r.contains below, r.contains above with
  | false, false => none
  | true, false => some below
  | false, true => some above
  | true, true =>
    if r.distance below < r.distance above then some below
    else if r.distance above < r.distance below then some above
    else if below.coefficient % 2 == 0 then some below
    else some above

/-- The decimal of the coarsest grid, among `steps` grids from `exponent` downwards. -/
def coarsest (r : Rounded) : Nat → Int → Scientific
  | 0, exponent => (r.neighbours exponent).1
  | steps + 1, exponent =>
    match r.onGrid? exponent with
    | some d => d
    | none => r.coarsest steps (exponent - 1)

/-- A power of ten above the number. -/
def startExponent (r : Rounded) : Int :=
  let whole := (r.high / r.denominator + 1).log2
  let part := (r.denominator / (r.high + 1)).log2
  (whole * 4 / 13 + 2 : Int) - part * 3 / 10

/-- The shortest decimal that rounds to the number: seventeen digits always do, and the search
starts at most a few grids too high. -/
def shortest (r : Rounded) : Scientific := r.coarsest 64 r.startExponent

end Rounded

/-- The shortest decimal of a positive finite float. -/
def shortestDecimal (x : Float) : Scientific :=
  let bits := x.toBits.toNat % Nat.pow 2 63
  let fraction := bits % Nat.pow 2 52
  match bits / Nat.pow 2 52 with
  | 0 => (Rounded.ofBinary fraction (-1074) false).shortest
  | e + 1 =>
    (Rounded.ofBinary (Nat.pow 2 52 + fraction) (e - 1074) (fraction == 0 && e != 0)).shortest

/-! ## Notation -/

/-- The text of a positive decimal.  When the exponent of its leading digit lies between -5 and 15
it is positional, with at least one digit after the point; otherwise it is scientific, with a
signed exponent. -/
def Scientific.text (d : Scientific) : String :=
  let all := Nat.toDigits 10 d.coefficient
  let digits := (all.reverse.dropWhile (· == '0')).reverse
  let leading : Int := d.exponent + all.length - 1
  if -5 ≤ leading ∧ leading ≤ 15 then
    if leading < 0 then
      String.ofList ("0.".toList ++ List.replicate (-leading - 1).toNat '0' ++ digits)
    else
      let wholeDigits := leading.toNat + 1
      let whole := digits.take wholeDigits
      let padding := List.replicate (wholeDigits - whole.length) '0'
      let part := digits.drop wholeDigits
      String.ofList (whole ++ padding ++ '.' :: (if part.isEmpty then ['0'] else part))
  else
    let point := if digits.length ≤ 1 then [] else '.' :: digits.drop 1
    let sign := if leading < 0 then '-' else '+'
    String.ofList (digits.take 1 ++ point ++ 'e' :: sign :: Nat.toDigits 10 leading.natAbs)

/-- The text of a finite float, and `null` for the floats that are no numbers. -/
def floatText (x : Float) : String :=
  if x.isNaN || x.isInf then "null"
  else
    let sign := if x.toBits.toNat < Nat.pow 2 63 then "" else "-"
    sign ++ (if x == 0.0 then "0.0" else (shortestDecimal x).text)

example : (Scientific.mk 123456789 (-3)).text = "123456.789" := by decide +kernel

example : (Scientific.mk 1 15).text = "1000000000000000.0" := by decide +kernel

example : (Scientific.mk 12 15).text = "1.2e+16" := by decide +kernel

example : (Scientific.mk 1 (-5)).text = "0.00001" := by decide +kernel

example : (Scientific.mk 5 (-324)).text = "5e-324" := by decide +kernel

example : (Rounded.ofBinary 1 (-1074) false).shortest = ⟨5, -324⟩ := by decide +kernel

example : (Rounded.ofBinary 7205759403792794 (-56) false).shortest = ⟨1, -1⟩ := by decide +kernel

end WirelessArchive.Text
