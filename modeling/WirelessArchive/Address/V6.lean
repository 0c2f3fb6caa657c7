import WirelessArchive.Address.V4

/-!
# IPv6 addresses

Eight groups of sixteen bits.  Written, each group has one to four hexadecimal digits, the first of
the longest runs of at least two zero groups is compressed to `::`, and the last two groups of an
IPv4-mapped address are written in dotted decimal.  Read, leading zeros are allowed, `::` stands
for one or more zero groups wherever it occurs, and the last two groups may be in dotted decimal.
-/

namespace WirelessArchive.Address

/-- An IPv6 address, most significant group first. -/
structure V6 where
  groups : List UInt16
  length_groups : groups.length = 8
  deriving DecidableEq, Repr

/-- The lower-case hexadecimal digits of a group. -/
def groupChars (g : UInt16) : List Char := Nat.toDigits 16 g.toNat

/-- The value of a hexadecimal digit of either case. -/
def hexDigit? (c : Char) : Option Nat :=
  if '0' ≤ c ∧ c ≤ '9' then some (c.toNat - '0'.toNat)
  else if 'a' ≤ c ∧ c ≤ 'f' then some (c.toNat - 'a'.toNat + 10)
  else if 'A' ≤ c ∧ c ≤ 'F' then some (c.toNat - 'A'.toNat + 10)
  else none

/-- Whether a character is a hexadecimal digit. -/
def isHexDigit (c : Char) : Bool := (hexDigit? c).isSome

/-- The number that a list of hexadecimal digits denotes. -/
def hexValue (cs : List Char) : Nat := cs.foldl (fun n c => n * 16 + (hexDigit? c).getD 0) 0

/-- A group at the front of a text, and the rest.  All hexadecimal digits at the front belong to it. -/
def readGroup? (cs : List Char) : Option (UInt16 × List Char) :=
  let digits := cs.takeWhile isHexDigit
  if digits = [] ∨ 4 < digits.length then none
  else some (UInt16.ofNat (hexValue digits), cs.dropWhile isHexDigit)

namespace V6

/-- The address with the given groups, if there are eight. -/
def ofGroups? (groups : List UInt16) : Option V6 :=
  if h : groups.length = 8 then some ⟨groups, h⟩ else none

/-! ## Writing -/

/-- The number of zero groups at the front. -/
def leadingZeros (groups : List UInt16) : Nat := (groups.takeWhile (· == 0)).length

/-- The start and the length of the first of the longest runs of zero groups. -/
def longestZeroRun : List UInt16 → Nat × Nat
  | [] => (0, 0)
  | g :: gs =>
    let here := leadingZeros (g :: gs)
    let (start, length) := longestZeroRun gs
    if length ≤ here then (0, here) else (start + 1, length)

/-- Groups joined by colons. -/
def joinGroups (groups : List UInt16) : List Char := [':'].intercalate (groups.map groupChars)

/-- The characters of an address. -/
def toChars (a : V6) : List Char :=
  match a.groups with
  | [0, 0, 0, 0, 0, 0xffff, high, low] => "::ffff:".toList ++ (V4.ofGroups high low).toChars
  | groups =>
    let (start, length) := longestZeroRun groups
    if 1 < length then
      joinGroups (groups.take start) ++ "::".toList ++ joinGroups (groups.drop (start + length))
    else joinGroups groups

/-! ## Reading -/

/-- Removes the colon in front of every group but the first of a part. -/
def separated? (isFirst : Bool) (cs : List Char) : Option (List Char) :=
  if isFirst then some cs else skip? ':' cs

/-- A part of an address: its groups, whether it ends in dotted decimal, and the rest. -/
structure Part where
  groups : List UInt16
  dotted : Bool
  rest : List Char

/-- As many groups as the text has at its front, up to `room`.  Dotted decimal needs room for two
groups and ends the part. -/
def readPart : Nat → Bool → List Char → Part
  | 0, _, cs => ⟨[], false, cs⟩
  | room + 1, isFirst, cs =>
    let dotted? := if room = 0 then none else (separated? isFirst cs).bind V4.read?
    match dotted? with
    | some (a, rest) => ⟨a.groups, true, rest⟩
    | none =>
      match (separated? isFirst cs).bind readGroup? with
      | none => ⟨[], false, cs⟩
      | some (g, rest) =>
        let part := readPart room false rest
        ⟨g :: part.groups, part.dotted, part.rest⟩

/-- An address at the front of a text, and the rest: eight groups, or two parts around `::`.
Dotted decimal can only stand at the end. -/
def read? (cs : List Char) : Option (V6 × List Char) :=
  let head := readPart 8 true cs
  match ofGroups? head.groups with
  | some a => some (a, head.rest)
  | none =>
    if head.dotted then none
    else do
      let rest ← skip? ':' (← skip? ':' head.rest)
      let tail := readPart (7 - head.groups.length) true rest
      let zeros := List.replicate (8 - head.groups.length - tail.groups.length) 0
      let a ← ofGroups? (head.groups ++ zeros ++ tail.groups)
      return (a, tail.rest)

end V6

end WirelessArchive.Address
