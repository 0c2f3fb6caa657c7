import WirelessArchive.Address.Basic
import WirelessArchive.Text.Decimal
import WirelessArchive.Text.Split

/-!
# Link addresses

An interface address with the length of its network part, written `address/length`.  The length
never exceeds the width of the address family; the type carries the proof.
-/

namespace WirelessArchive

/-- An interface address with its prefix length. -/
structure LinkAddress where
  address : Address
  prefixLength : UInt8
  prefixLength_le : prefixLength.toNat ≤ address.width
  deriving DecidableEq, Repr

namespace LinkAddress

/-- Why a link address cannot be built or read. -/
inductive ParseError where
  /-- The text has no `/`. -/
  | noLength (text : String)
  /-- What stands before the `/` is no address. -/
  | badAddress (text : String)
  /-- What stands after the `/` is no number below 256. -/
  | badLength (text : String)
  /-- The prefix is longer than the address. -/
  | tooLong (prefixLength : UInt8) (width : Nat)
  deriving DecidableEq, Repr

/-- The wording of each error. -/
def ParseError.message : ParseError → String
  | noLength text => "link address '" ++ text ++ "' has no prefix length"
  | badAddress text => "invalid IP address '" ++ text ++ "'"
  | badLength text => "invalid prefix length '" ++ text ++ "'"
  | tooLong n width => "prefix length " ++ toString n.toNat ++ " exceeds " ++ toString width

/-- The link address with these parts, if the prefix fits the address family. -/
def build (address : Address) (prefixLength : UInt8) : Except ParseError LinkAddress :=
  if h : prefixLength.toNat ≤ address.width then .ok ⟨address, prefixLength, h⟩
  else .error (.tooLong prefixLength address.width)

/-- The characters of `address/length`. -/
def toChars (l : LinkAddress) : List Char :=
  l.address.toChars ++ '/' :: Nat.toDigits 10 l.prefixLength.toNat

/-- The text `address/length`. -/
def text (l : LinkAddress) : String := String.ofList l.toChars

/-- The link address that a text denotes: the parts around its first `/`, judged from left to
right. -/
def parse (text : String) : Except ParseError LinkAddress :=
  match Text.splitFirst? '/' text.toList with
  | none => .error (.noLength text)
  | some (before, after) =>
    match Address.parse? before with
    | none => .error (.badAddress (String.ofList before))
    | some address =>
      match Text.Decimal.parse? UInt8.size after with
      | none => .error (.badLength (String.ofList after))
      | some n => build address (UInt8.ofNat n)

end LinkAddress

end WirelessArchive
