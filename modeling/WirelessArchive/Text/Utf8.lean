/-!
# UTF-8

Text as bytes and back (`decode?_encode`), and the length of the longest prefix of a byte sequence
that is well-formed and ends between characters.  That length tells where a text stops being valid.
-/

namespace WirelessArchive.Text.Utf8

/-- The bytes of a text. -/
def encode (s : String) : List UInt8 := s.toList.flatMap String.utf8EncodeChar

/-- The text of which these are the bytes, if they are well-formed. -/
def decode? (bytes : List UInt8) : Option String := String.fromUTF8? bytes.toByteArray

/-- Decoding gives back a text from its bytes. -/
theorem decode?_encode (s : String) : decode? (encode s) = some s := by
  have h : (encode s).toByteArray = s.toByteArray := String.utf8Encode_toList
  have hv : (encode s).toByteArray.IsValidUTF8 := h ▸ s.isValidUTF8
  unfold decode? String.fromUTF8?
  rw [dif_pos hv]
  exact congrArg some (String.toByteArray_inj.1 h)

/-! ## The valid prefix -/

/-- The state between bytes: `valid` bytes make whole characters, `taken` more belong to a character
that owes `owed` bytes, of which the next lies between `low` and `high`. -/
structure State where
  valid : Nat := 0
  taken : Nat := 0
  owed : Nat := 0
  low : UInt8 := 0x80
  high : UInt8 := 0xBF
  deriving DecidableEq, Repr

namespace State

/-- The state after the first byte of a character of several bytes. -/
def lead (s : State) (owed : Nat) (low high : UInt8) : State :=
  { s with taken := 1, owed, low, high }

/-- The state after the first byte of a character. -/
def first? (s : State) (b : UInt8) : Option State :=
  if b < 0x80 then some { valid := s.valid + 1 }
  else if b < 0xC2 then none
  else if b ≤ 0xDF then some (s.lead 1 0x80 0xBF)
  else if b = 0xE0 then some (s.lead 2 0xA0 0xBF)
  else if b = 0xED then some (s.lead 2 0x80 0x9F)
  else if b ≤ 0xEF then some (s.lead 2 0x80 0xBF)
  else if b = 0xF0 then some (s.lead 3 0x90 0xBF)
  else if b ≤ 0xF3 then some (s.lead 3 0x80 0xBF)
  else if b = 0xF4 then some (s.lead 3 0x80 0x8F)
  else none

/-- The state after one more byte, if it is well-formed there. -/
def next? (s : State) (b : UInt8) : Option State :=
  match s.owed with
  | 0 => s.first? b
  | owed + 1 =>
    if b < s.low ∨ s.high < b then none
    else if owed = 0 then some { valid := s.valid + s.taken + 1 }
    else some { valid := s.valid, taken := s.taken + 1, owed }

end State

/-- The number of bytes of whole characters, up to the first byte that is not well-formed. -/
def validLength (s : State) : List UInt8 → Nat
  | [] => s.valid
  | b :: rest =>
    match s.next? b with
    | some s' => validLength s' rest
    | none => s.valid

end WirelessArchive.Text.Utf8
