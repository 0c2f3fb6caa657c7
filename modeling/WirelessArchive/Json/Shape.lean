import WirelessArchive.Address.Link
import WirelessArchive.Json.Value
import WirelessArchive.Text.Quoted

/-!
# The shape of JSON values

Reading a value as something of a given type, and in what way it may fail to be one.
-/

namespace WirelessArchive.Json

/-- What a value is, as messages name it. -/
def describe : Json → String
  | .null => "null"
  | .bool b => "boolean `" ++ (if b then "true" else "false") ++ "`"
  | .number (.integer n _) => "integer `" ++ toString n ++ "`"
  | .number (.float x) => "floating point `" ++ Text.floatText x ++ "`"
  | .string s => "string " ++ Text.quoted s
  | .array _ => "sequence"
  | .object _ => "map"

/-- In what way a value fails to have a type. -/
inductive Mismatch where
  /-- It is of another type. -/
  | wrongType (found : Json) (expected : String)
  /-- It is an integer that the type does not hold. -/
  | outOfRange (n : Int) (expected : String)
  /-- It is an object with no or several keys where one is expected. -/
  | notSingleKey
  /-- It names none of the variants. -/
  | unknownVariant (name : String) (known : List String)
  /-- It lacks a member. -/
  | missingField (name : String)
  /-- It gives a member twice. -/
  | duplicateField (name : String)
  /-- It is a list without a mandatory item. -/
  | tooShort (length : Nat) (expected : String)
  /-- It is a list with items that nothing expects. -/
  | tooLong (length : Nat)
  | badAddress
  | badLink (error : LinkAddress.ParseError)

/-- The choice between names, as messages give it. -/
def choice : List String → String
  | [a, b] => "`" ++ a ++ "` or `" ++ b ++ "`"
  | names => "one of " ++ ", ".intercalate (names.map fun n => "`" ++ n ++ "`")

/-- The wording of each mismatch. -/
def Mismatch.message : Mismatch → String
  | wrongType found expected => "invalid type: " ++ found.describe ++ ", expected " ++ expected
  | outOfRange n expected => "invalid value: integer `" ++ toString n ++ "`, expected " ++ expected
  | notSingleKey => "invalid value: map, expected map with a single key"
  | unknownVariant name known => "unknown variant `" ++ name ++ "`, expected " ++ choice known
  | missingField name => "missing field `" ++ name ++ "`"
  | duplicateField name => "duplicate field `" ++ name ++ "`"
  | tooShort n expected => "invalid length " ++ toString n ++ ", expected " ++ expected
  | tooLong n => "invalid length " ++ toString n ++ ", expected fewer elements in array"
  | badAddress => "invalid IP address syntax"
  | badLink error => error.message

/-! ## Readers -/

/-- The outcome of reading a value as an `α`. -/
abbrev Read (α : Type) := Except Mismatch α

/-- Reads a string. -/
def asString : Json → Read String
  | .string s => .ok s
  | v => .error (.wrongType v "a string")

/-- Reads a truth value. -/
def asBool : Json → Read Bool
  | .bool b => .ok b
  | v => .error (.wrongType v "a boolean")

/-- Reads a natural number below `limit`; `type` names the range. -/
def asNatural (limit : Nat) (type : String) : Json → Read Nat
  | .number (.integer n _) =>
    if 0 ≤ n ∧ n < limit then .ok n.toNat else .error (.outOfRange n type)
  | v => .error (.wrongType v type)

/-- Reads an octet. -/
def asOctet (v : Json) : Read UInt8 := (asNatural UInt8.size "u8" v).map UInt8.ofNat

/-- Reads a word of sixteen bits. -/
def asWord16 (v : Json) : Read UInt16 := (asNatural UInt16.size "u16" v).map UInt16.ofNat

/-- Reads a word of thirty-two bits. -/
def asWord32 (v : Json) : Read UInt32 := (asNatural UInt32.size "u32" v).map UInt32.ofNat

/-- Reads a size, which is a word of sixty-four bits. -/
def asSize (v : Json) : Read UInt64 := (asNatural UInt64.size "usize" v).map UInt64.ofNat

/-- Reads `null` as nothing and anything else with `read`. -/
def asOption {α : Type} (read : Json → Read α) : Json → Read (Option α)
  | .null => .ok none
  | v => (read v).map some

/-- Reads a list; the first item that fails decides. -/
def asList {α : Type} (read : Json → Read α) : Json → Read (List α)
  | .array items => items.mapM read
  | v => .error (.wrongType v "a sequence")

/-- Reads nothing from `null`. -/
def asUnit : Json → Read Unit
  | .null => .ok ()
  | v => .error (.wrongType v "unit")

/-- The variant of a name. -/
def variantNamed {α : Type} (table : List (String × α)) (name : String) : Read α :=
  match table.lookup name with
  | some a => .ok a
  | none => .error (.unknownVariant name (table.map (·.1)))

/-- Reads a variant: its name, or an object that holds `null` under its name and nothing else. -/
def asVariant {α : Type} (table : List (String × α)) : Json → Read α
  | .string name => variantNamed table name
  | .object members =>
    match soleMember? members with
    | none => .error .notSingleKey
    | some (name, value) => do
      let a ← variantNamed table name
      asUnit value
      return a
  | v => .error (.wrongType v "string or map")

/-- Reads an IP address. -/
def asAddress : Json → Read Address
  | .string s =>
    match Address.parse? s.toList with
    | some a => .ok a
    | none => .error .badAddress
  | v => .error (.wrongType v "IP address")

/-- Reads a link address. -/
def asLink : Json → Read LinkAddress
  | .string s =>
    match LinkAddress.parse s with
    | .ok l => .ok l
    | .error e => .error (.badLink e)
  | v => .error (.wrongType v "a string")

end WirelessArchive.Json
