import WirelessArchive.Json.Numeral
import WirelessArchive.Json.StringText

/-!
# Scalar text

A scalar is a literal, a number or a string.  Its first byte tells which; from then on it is read
byte by byte.
-/

namespace WirelessArchive.Json

/-- A scalar that is being read. -/
inductive Scalar where
  /-- The bytes that a literal still owes, and its value. -/
  | literal (owed : List UInt8) (value : Json)
  | numeral (n : Numeral)
  | text (s : StringText)

namespace Scalar

/-- The scalar that a byte starts, if it starts one. -/
def start? (b : UInt8) : Option Scalar :=
  if b = 0x22 then some (text {})
  else if b = 0x6E then some (literal [0x75, 0x6C, 0x6C] .null)
  else if b = 0x74 then some (literal [0x72, 0x75, 0x65] (.bool true))
  else if b = 0x66 then some (literal [0x61, 0x6C, 0x73, 0x65] (.bool false))
  else (Numeral.start? b).map numeral

/-- The progress of a part that is read, as the progress of the scalar. -/
def lift {σ α : Type} (wrap : σ → Scalar) (value : α → Json) :
    Progress σ α Fault → Progress Scalar Json Fault
  | .more s => .more (wrap s)
  | .done a => .done (value a)
  | .before a => .before (value a)
  | .halt h => .halt h

/-- Reads a byte. -/
def step (s : Scalar) (b : UInt8) : Progress Scalar Json Fault :=
  match s with
  | literal [] value => .before value
  | literal (c :: owed) value =>
    if b ≠ c then .halt ⟨.expectedLiteral, true⟩
    else if owed.isEmpty then .done value
    else .more (literal owed value)
  | numeral n => lift numeral Json.number (n.step b)
  | text t => lift text Json.string (t.step b)

/-- The scalar if the text ends here. -/
def finish : Scalar → Except Fault Json
  | literal [] value => .ok value
  | literal _ _ => .error .endInValue
  | numeral n => n.finish.map Json.number
  | text _ => .error .endInString

end Scalar

end WirelessArchive.Json
