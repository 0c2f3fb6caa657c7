import WirelessArchive.Json.Value
import WirelessArchive.Text.Utf8

/-!
# Writing JSON text

A value is written either compact, without any white space, or indented, with every item and member
on a line of its own.  In strings only the quote, the backslash and control characters are escaped;
all other text is written as it is, in UTF-8.
-/

namespace WirelessArchive.Json

/-- How a value is laid out. -/
inductive Layout where
  | compact
  | indented
  deriving DecidableEq, Repr

namespace Printer

/-- The lower-case hexadecimal digit of a number below sixteen. -/
def hexDigit (n : UInt8) : UInt8 := if n < 10 then 0x30 + n else 0x57 + n

/-- The text of one byte of a string. -/
def escaped (b : UInt8) : List UInt8 :=
  if b = 0x22 ∨ b = 0x5C then [0x5C, b]
  else if b = 0x08 then [0x5C, 0x62]
  else if b = 0x09 then [0x5C, 0x74]
  else if b = 0x0A then [0x5C, 0x6E]
  else if b = 0x0C then [0x5C, 0x66]
  else if b = 0x0D then [0x5C, 0x72]
  else if b < 0x20 then [0x5C, 0x75, 0x30, 0x30, hexDigit (b / 16), hexDigit (b % 16)]
  else [b]

/-- The text of a string. -/
def string (s : String) : List UInt8 :=
  0x22 :: ((Text.Utf8.encode s).flatMap escaped ++ [0x22])

/-- The ASCII bytes of characters. -/
def ascii (cs : List Char) : List UInt8 := cs.map Char.toUInt8

/-- The characters of a number. -/
def number : Number → List Char
  | .integer (.ofNat n) _ => Nat.toDigits 10 n
  | .integer (.negSucc n) _ => '-' :: Nat.toDigits 10 (n + 1)
  | .float x => (Text.floatText x).toList

/-- What stands before an item at a depth: nothing, or a line break and the indentation. -/
def lineBreak (layout : Layout) (depth : Nat) : List UInt8 :=
  match layout with
  | .compact => []
  | .indented => 0x0A :: List.replicate (2 * depth) 0x20

/-- What stands between a key and its value. -/
def keyMark (layout : Layout) : List UInt8 :=
  match layout with
  | .compact => [0x3A]
  | .indented => [0x3A, 0x20]

mutual

/-- The text of a value at a depth. -/
def value (layout : Layout) (depth : Nat) : Json → List UInt8
  | .null => [0x6E, 0x75, 0x6C, 0x6C]
  | .bool true => [0x74, 0x72, 0x75, 0x65]
  | .bool false => [0x66, 0x61, 0x6C, 0x73, 0x65]
  | .number n => ascii (number n)
  | .string s => string s
  | .array [] => [0x5B, 0x5D]
  | .array (item :: items) =>
    0x5B :: (lineBreak layout (depth + 1) ++ value layout (depth + 1) item ++
      moreItems layout (depth + 1) items ++ lineBreak layout depth ++ [0x5D])
  | .object [] => [0x7B, 0x7D]
  | .object ((key, item) :: members) =>
    0x7B :: (lineBreak layout (depth + 1) ++ string key ++ keyMark layout ++
      value layout (depth + 1) item ++ moreMembers layout (depth + 1) members ++
      lineBreak layout depth ++ [0x7D])

/-- The text of the items after the first. -/
def moreItems (layout : Layout) (depth : Nat) : List Json → List UInt8
  | [] => []
  | item :: items =>
    0x2C :: (lineBreak layout depth ++ value layout depth item ++ moreItems layout depth items)

/-- The text of the members after the first. -/
def moreMembers (layout : Layout) (depth : Nat) : List (String × Json) → List UInt8
  | [] => []
  | (key, item) :: members =>
    0x2C :: (lineBreak layout depth ++ string key ++ keyMark layout ++ value layout depth item ++
      moreMembers layout depth members)

end

end Printer

/-- The text of a value. -/
def print (layout : Layout) (value : Json) : List UInt8 := Printer.value layout 0 value

end WirelessArchive.Json
