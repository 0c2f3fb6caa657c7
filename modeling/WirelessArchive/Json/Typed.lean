import WirelessArchive.Json.Reader
import WirelessArchive.Json.Shape

/-!
# Reading types straight from text

When the type of a text is known, a value of the wrong type is refused at its place: after a
scalar, before the bracket of a container.  This module holds what such readers share, and the
readers of the two types that are a single string: link addresses, and names of variants.
-/

namespace WirelessArchive.Json

/-- Why a typed reader halts: the text is not JSON, or a value is not of the type. -/
inductive TypedFault where
  | text (fault : Fault)
  | type (mismatch : Mismatch)

namespace TypedFault

/-- The text of a link address is judged after it was read, and its errors tell no place. -/
def isPlaced : TypedFault → Bool
  | type (.badLink _) => false
  | _ => true

/-- The message of a fault, with the place where it was found. -/
def describe (input : List UInt8) (stop : Stop TypedFault) : String :=
  match stop.cause with
  | text fault => (Stop.mk fault stop.unread).describe input
  | type mismatch =>
    if stop.cause.isPlaced then
      mismatch.message ++ (Position.reached input stop.unread).phrase
    else mismatch.message

end TypedFault

/-- A halt for a fault in the text. -/
def Halt.ofText (h : Halt Fault) : Halt TypedFault := ⟨.text h.cause, h.counted⟩

/-- Halts at the byte that was looked at. -/
def refuseText {α : Type} (fault : Fault) : Except (Halt TypedFault) α := .error ⟨.text fault, true⟩

/-- The outcome of judging a value: a mismatch halts, and the byte that was looked at counts or
not. -/
def judge {α : Type} (read : Read α) (counted : Bool) : Except (Halt TypedFault) α :=
  match read with
  | .ok a => .ok a
  | .error mismatch => .error ⟨.type mismatch, counted⟩

/-- What the first byte of a value of a scalar type starts; a container is judged as it is. -/
def beginScalar {α : Type} (read : Json → Read α) (b : UInt8) : Except (Halt TypedFault) Scalar :=
  let container? : Option Json :=
    if b = 0x5B then some (.array []) else if b = 0x7B then some (.object []) else none
  match container? with
  | some v =>
    match read v with
    | .error mismatch => .error ⟨.type mismatch, false⟩
    | .ok _ => refuseText .expectedValue
  | none =>
    match Scalar.start? b with
    | some s => .ok s
    | none => refuseText .expectedValue

/-- Runs a typed reader over a whole text. -/
def runTyped {σ α : Type} (step : σ → UInt8 → Except (Halt TypedFault) σ)
    (finish : σ → Except TypedFault α) (start : σ) (text : List UInt8) :
    Except (Stop TypedFault) α :=
  match feed step start text with
  | .error stop => .error stop
  | .ok s =>
    match finish s with
    | .ok a => .ok a
    | .error fault => .error ⟨fault, []⟩

/-! ## A scalar as a whole text -/

/-- Where the reader of a text that is one scalar stands. -/
inductive Sole (α : Type) where
  | before
  | within (s : Scalar)
  | complete (a : α)

namespace Sole

variable {α : Type}

/-- Reads a byte of a text that is one scalar of a type. -/
def step (read : Json → Read α) (s : Sole α) (b : UInt8) : Except (Halt TypedFault) (Sole α) :=
  match s with
  | before => if isSpace b then .ok before else (beginScalar read b).map within
  | within scalar =>
    match scalar.step b with
    | .more scalar' => .ok (within scalar')
    | .done v => (judge (read v) true).map complete
    | .before v => do
      let a ← judge (read v) false
      if isSpace b then return complete a else refuseText .trailingCharacters
    | .halt h => .error h.ofText
  | complete a => if isSpace b then .ok (complete a) else refuseText .trailingCharacters

/-- The outcome when the text ends. -/
def finish (read : Json → Read α) : Sole α → Except TypedFault α
  | before => .error (.text .endInValue)
  | within scalar =>
    match scalar.finish with
    | .error fault => .error (.text fault)
    | .ok v =>
      match read v with
      | .ok a => .ok a
      | .error mismatch => .error (.type mismatch)
  | complete a => .ok a

end Sole

/-- The link address that a JSON text holds. -/
def readLink (text : List UInt8) : Except (Stop TypedFault) LinkAddress :=
  runTyped (Sole.step asLink) (Sole.finish asLink) .before text

/-! ## Variants -/

/-- Where the reader of a variant stands: the variant is a name, or an object with `null` under its
name. -/
inductive VariantText (α : Type) where
  | before
  | name (text : StringText)
  /-- After the opening brace. -/
  | firstKey
  | key (text : StringText)
  | colon (a : α)
  | value (a : α)
  | payload (a : α) (s : Scalar)
  | afterPayload (a : α)
  | complete (a : α)

namespace VariantText

variable {α : Type}

/-- Reads a byte after the value under the name.  What is not the closing brace is refused before
it is read. -/
def close (a : α) (b : UInt8) : Except (Halt TypedFault) (VariantText α) :=
  if isSpace b then .ok (afterPayload a)
  else if b = 0x7D then .ok (complete a)
  else .error ⟨.text .expectedValue, false⟩

/-- Reads a byte. -/
def step (table : List (String × α)) (s : VariantText α) (b : UInt8) :
    Except (Halt TypedFault) (VariantText α) :=
  match s with
  | before =>
    if isSpace b then .ok before
    else if b = 0x22 then .ok (name {})
    else if b = 0x7B then .ok firstKey
    else refuseText .expectedValue
  | name text =>
    match text.step b with
    | .more text' => .ok (name text')
    | .done n => (judge (variantNamed table n) true).map complete
    | .before n => (judge (variantNamed table n) false).map complete
    | .halt h => .error h.ofText
  | firstKey =>
    if isSpace b then .ok firstKey
    else if b = 0x22 then .ok (key {})
    else if b = 0x7D then refuseText .expectedValue
    else refuseText .keyNotString
  | key text =>
    match text.step b with
    | .more text' => .ok (key text')
    | .done n => (judge (variantNamed table n) true).map colon
    | .before n => (judge (variantNamed table n) false).map colon
    | .halt h => .error h.ofText
  | colon a =>
    if isSpace b then .ok (colon a)
    else if b = 0x3A then .ok (value a)
    else refuseText .expectedColon
  | value a =>
    if isSpace b then .ok (value a) else (beginScalar asUnit b).map (payload a)
  | payload a scalar =>
    match scalar.step b with
    | .more scalar' => .ok (payload a scalar')
    | .done v => (judge (asUnit v) true).map fun _ => afterPayload a
    | .before v => do
      judge (asUnit v) false
      close a b
    | .halt h => .error h.ofText
  | afterPayload a => close a b
  | complete a => if isSpace b then .ok (complete a) else refuseText .trailingCharacters

/-- The outcome when the text ends. -/
def finish : VariantText α → Except TypedFault α
  | before => .error (.text .endInValue)
  | name _ => .error (.text .endInString)
  | firstKey => .error (.text .endInObject)
  | key _ => .error (.text .endInString)
  | colon _ => .error (.text .endInObject)
  | value _ => .error (.text .endInValue)
  | payload _ scalar =>
    match scalar.finish with
    | .error fault => .error (.text fault)
    | .ok v =>
      match asUnit v with
      | .ok () => .error (.text .endInObject)
      | .error mismatch => .error (.type mismatch)
  | afterPayload _ => .error (.text .endInObject)
  | complete a => .ok a

end VariantText

/-- The variant that a JSON text holds. -/
def readVariant {α : Type} (table : List (String × α)) (text : List UInt8) :
    Except (Stop TypedFault) α :=
  runTyped (VariantText.step table) VariantText.finish .before text

end WirelessArchive.Json
