import WirelessArchive.Text.Decimal
import WirelessArchive.Text.Split

/-!
# Schema versions

A backup says which version of the schema it was written with, as `major.minor`.  A reader accepts
every minor version of its own major version, since a newer minor version only adds members, and
refuses every other major version.
-/

namespace WirelessArchive

/-- A schema version. -/
structure Version where
  major : UInt32
  minor : UInt32
  deriving DecidableEq, Repr

namespace Version

/-- A text that is not `major.minor`. -/
structure ParseError where
  text : String
  deriving DecidableEq, Repr

/-- The wording of the error. -/
def ParseError.message (e : ParseError) : String := "invalid backup version '" ++ e.text ++ "'"

/-- The version that is written. -/
def current : Version := ⟨1, 0⟩

/-- A version is readable when its major number is the current one. -/
def isReadable (v : Version) : Bool := v.major == current.major

/-- The characters of `major.minor`. -/
def toChars (v : Version) : List Char :=
  Nat.toDigits 10 v.major.toNat ++ '.' :: Nat.toDigits 10 v.minor.toNat

/-- The text `major.minor`. -/
def text (v : Version) : String := String.ofList v.toChars

/-- One of the two numbers of a version: below `2 ^ 32`, with an optional `+`. -/
def readNumber? (cs : List Char) : Option UInt32 :=
  (Text.Decimal.parse? UInt32.size cs).map UInt32.ofNat

/-- The version that a text denotes: two numbers around the first point. -/
def parse (text : String) : Except ParseError Version :=
  let version? := do
    let (major, minor) ← Text.splitFirst? '.' text.toList
    return Version.mk (← readNumber? major) (← readNumber? minor)
  match version? with
  | some v => .ok v
  | none => .error ⟨text⟩

/-- Versions are ordered by major number, then by minor number. -/
def precedes (v w : Version) : Bool :=
  v.major < w.major || (v.major == w.major && v.minor ≤ w.minor)

end Version

end WirelessArchive
