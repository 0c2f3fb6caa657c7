import WirelessArchive.Address.V6

/-!
# IP addresses

An address of either family and its text.  A text is tried as IPv4 first; once an IPv4 address
stands at its front, nothing may follow.
-/

namespace WirelessArchive

/-- An IP address. -/
inductive Address where
  | v4 (address : Address.V4)
  | v6 (address : Address.V6)
  deriving DecidableEq, Repr

namespace Address

/-- The number of bits of an address of this family. -/
def width : Address → Nat
  | v4 _ => 32
  | v6 _ => 128

/-- Whether the address is of the IPv6 family. -/
def isV6 : Address → Bool
  | v4 _ => false
  | v6 _ => true

/-- The characters of an address. -/
def toChars : Address → List Char
  | v4 a => a.toChars
  | v6 a => a.toChars

/-- The text of an address. -/
def text (a : Address) : String := String.ofList a.toChars

/-- An address at the front of a text, and the rest. -/
def read? (cs : List Char) : Option (Address × List Char) :=
  match V4.read? cs with
  | some (a, rest) => some (v4 a, rest)
  | none => (V6.read? cs).map fun (a, rest) => (v6 a, rest)

/-- The address that the whole text denotes. -/
def parse? (cs : List Char) : Option Address :=
  match read? cs with
  | some (a, []) => some a
  | _ => none

example : (parse? "2001:DB8::0:0:1".toList).map text = some "2001:db8::1" := by decide +kernel

example : (parse? "1:0:0:2:0:0:3:4".toList).map text = some "1::2:0:0:3:4" := by decide +kernel

example : (parse? "0::ffff:102:304".toList).map text = some "::ffff:1.2.3.4" := by decide +kernel

example : parse? "1:2:3:4:5:6:7::8".toList = none := by decide +kernel

example : parse? "01.2.3.4".toList = none := by decide +kernel

end Address

end WirelessArchive
