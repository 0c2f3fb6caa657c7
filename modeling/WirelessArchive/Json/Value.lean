import WirelessArchive.Text.Shortest

/-!
# JSON values

A value as it stands in a document: the members of an object keep their order, and a key may occur
more than once.  Reading an object as a finite map takes the last occurrence of each key
(`member?`), so neither the order of distinct keys nor an overridden occurrence can matter.

Numbers are kept exactly when they are integers of 64 bits, signed or unsigned, and as floats
otherwise.
-/

namespace WirelessArchive

/-- A JSON number. -/
inductive Json.Number where
  /-- An integer that fits 64 bits, signed or unsigned. -/
  | integer (n : Int) (fits : -0x8000000000000000 ≤ n ∧ n < 0x10000000000000000)
  /-- Any other number. -/
  | float (x : Float)
  deriving DecidableEq

/-- A JSON value. -/
inductive Json where
  | null
  | bool (b : Bool)
  | number (n : Json.Number)
  | string (s : String)
  | array (items : List Json)
  | object (members : List (String × Json))

namespace Json

/-! ## Building numbers -/

/-- A natural number below `2 ^ 64`. -/
def natural (n : Nat) (h : n < 0x10000000000000000 := by omega) : Json :=
  number (.integer n ⟨by omega, by omega⟩)

/-- An octet. -/
def octet (n : UInt8) : Json := natural n.toNat (Nat.lt_trans n.toNat_lt (by decide))

/-- A word of sixteen bits. -/
def word16 (n : UInt16) : Json := natural n.toNat (Nat.lt_trans n.toNat_lt (by decide))

/-- A word of thirty-two bits. -/
def word32 (n : UInt32) : Json := natural n.toNat (Nat.lt_trans n.toNat_lt (by decide))

/-- A word of sixty-four bits. -/
def word64 (n : UInt64) : Json := natural n.toNat n.toNat_lt

/-- A string or nothing. -/
def ofString? : Option String → Json
  | none => null
  | some s => string s

/-- A list of strings. -/
def strings (items : List String) : Json := array (items.map string)

/-! ## Objects -/

/-- The value of the last occurrence of a key. -/
def member? (members : List (String × Json)) (key : String) : Option Json :=
  members.reverse.lookup key

/-- The key and the value of an object in which only one key occurs. -/
def soleMember? (members : List (String × Json)) : Option (String × Json) :=
  match members.reverse with
  | [] => none
  | (key, value) :: earlier => if earlier.all (·.1 == key) then some (key, value) else none

end Json

end WirelessArchive
