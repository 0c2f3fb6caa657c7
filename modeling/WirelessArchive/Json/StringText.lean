import WirelessArchive.Json.Fault
import WirelessArchive.Json.Feed
import WirelessArchive.Text.Utf8

/-!
# String text

Strings between double quotes, read byte by byte after the opening quote.  Escapes are decoded on
the way; that the content is UTF-8 is judged at the closing quote.

A code unit above U+FFFF is written as two escapes, a high surrogate and a low one.  The four
characters of an escape are taken before they are judged.
-/

namespace WirelessArchive.Json

/-- The value of a hexadecimal digit. -/
def hexDigit? (b : UInt8) : Option Nat :=
  if 0x30 ≤ b ∧ b ≤ 0x39 then some (b.toNat - 0x30)
  else if 0x61 ≤ b ∧ b ≤ 0x66 then some (b.toNat - 0x61 + 10)
  else if 0x41 ≤ b ∧ b ≤ 0x46 then some (b.toNat - 0x41 + 10)
  else none

/-- The number that hexadecimal digits denote, if they all are digits. -/
def hexValue? (digits : List UInt8) : Option Nat :=
  digits.foldlM (fun n b => (hexDigit? b).map (n * 16 + ·)) 0

/-- The byte that a one-letter escape stands for. -/
def escapedByte? (b : UInt8) : Option UInt8 :=
  if b = 0x22 ∨ b = 0x5C ∨ b = 0x2F then some b
  else if b = 0x62 then some 0x08
  else if b = 0x66 then some 0x0C
  else if b = 0x6E then some 0x0A
  else if b = 0x72 then some 0x0D
  else if b = 0x74 then some 0x09
  else none

/-- Where a string reader stands. -/
inductive StringMode where
  | plain
  /-- After a backslash. -/
  | escape
  /-- Within the four digits of an escape, which are kept newest first; `high` is the high surrogate
  that was read just before. -/
  | hex (high : Option Nat) (digits : List UInt8)
  /-- After a high surrogate, whose partner has to follow. -/
  | partner (high : Nat)
  /-- After a high surrogate and a backslash. -/
  | partnerEscape (high : Nat)
  deriving DecidableEq, Repr

/-- A string that is being read: its content so far, newest byte first. -/
structure StringText where
  content : List UInt8 := []
  mode : StringMode := .plain
  deriving DecidableEq, Repr

namespace StringText

/-- Takes bytes of content. -/
def push (s : StringText) (bytes : List UInt8) : StringText :=
  ⟨bytes.reverse ++ s.content, .plain⟩

/-- The string whose content has been read. -/
def close (s : StringText) : Except Fault String :=
  let bytes := s.content.reverse
  match Text.Utf8.decode? bytes with
  | some text => .ok text
  | none => .error (.invalidUnicode (bytes.length - Text.Utf8.validLength {} bytes))

/-- Takes an escaped code unit. -/
def codeUnit (s : StringText) (high : Option Nat) (unit : Nat) : Except Fault StringText :=
  match high with
  | none =>
    if 0xDC00 ≤ unit ∧ unit ≤ 0xDFFF then .error .loneSurrogate
    else if 0xD800 ≤ unit ∧ unit ≤ 0xDBFF then .ok { s with mode := .partner unit }
    else .ok (s.push (String.utf8EncodeChar (Char.ofNat unit)))
  | some h =>
    if 0xDC00 ≤ unit ∧ unit ≤ 0xDFFF then
      let n := 0x10000 + (h - 0xD800) * 0x400 + (unit - 0xDC00)
      .ok (s.push (String.utf8EncodeChar (Char.ofNat n)))
    else .error .loneSurrogate

/-- Reads a byte. -/
def step (s : StringText) (b : UInt8) : Progress StringText String Fault :=
  match s.mode with
  | .plain =>
    if b = 0x22 then
      match s.close with
      | .ok text => .done text
      | .error fault => .halt ⟨fault, true⟩
    else if b = 0x5C then .more { s with mode := .escape }
    else if b < 0x20 then .halt ⟨.controlCharacter, true⟩
    else .more (s.push [b])
  | .escape =>
    if b = 0x75 then .more { s with mode := .hex none [] }
    else
      match escapedByte? b with
      | some c => .more (s.push [c])
      | none => .halt ⟨.invalidEscape, true⟩
  | .hex high digits =>
    let digits := b :: digits
    if digits.length < 4 then .more { s with mode := .hex high digits }
    else
      match hexValue? digits.reverse with
      | none => .halt ⟨.invalidEscape, true⟩
      | some unit =>
        match s.codeUnit high unit with
        | .ok s' => .more s'
        | .error fault => .halt ⟨fault, true⟩
  | .partner high =>
    if b = 0x5C then .more { s with mode := .partnerEscape high }
    else .halt ⟨.unfinishedSurrogate, true⟩
  | .partnerEscape high =>
    if b = 0x75 then .more { s with mode := .hex (some high) [] }
    else .halt ⟨.unfinishedSurrogate, true⟩

end StringText

end WirelessArchive.Json
