import WirelessArchive.Json.Shape

/-!
# Structures in JSON

A structure has named members in a declared order.  It is given either as an object, by key, or as
an array, by position; trailing items may be left out.  Members are read one after the other, those
of an object in the order of their keys, and the first that fails decides.  Only then are mandatory
members missed, and surplus items noticed.  Keys that the structure does not know are passed over.
-/

namespace WirelessArchive.Json

/-- The members of a structure. -/
structure Schema (μ : Type) where
  /-- The name of the structure in messages. -/
  name : String
  key : μ → String
  /-- The members in declared order. -/
  declared : List μ
  /-- The members in the order of their keys. -/
  byKey : List μ
  /-- The members that have to be given, in declared order. -/
  mandatory : List μ

namespace Schema

variable {μ ρ : Type} [BEq μ]

/-- The members that are given, in the order in which they are read. -/
def slots (schema : Schema μ) : Json → Read (List (μ × Json))
  | .object members =>
    .ok (schema.byKey.filterMap fun m => (member? members (schema.key m)).map (m, ·))
  | .array items => .ok (schema.declared.zip items)
  | v => .error (.wrongType v schema.name)

/-- How a member that is not given is reported. -/
def missing (schema : Schema μ) (v : Json) (m : μ) : Mismatch :=
  match v with
  | .array _ =>
    .tooShort (schema.declared.idxOf m)
      (schema.name ++ " with " ++ toString schema.declared.length ++ " elements")
  | _ => .missingField (schema.key m)

/-- Refuses an array with more items than members. -/
def noSurplus (schema : Schema μ) : Json → Read Unit
  | .array items =>
    if schema.declared.length < items.length then .error (.tooLong items.length) else .ok ()
  | _ => .ok ()

/-- Refuses a value that lacks a mandatory member. -/
def noneMissing (schema : Schema μ) (v : Json) (slots : List (μ × Json)) : Read Unit :=
  match schema.mandatory.find? fun m => !slots.any (·.1 == m) with
  | some m => .error (schema.missing v m)
  | none => .ok ()

/-- Reads a structure, putting one member after the other into `blank`. -/
def read (schema : Schema μ) (put : ρ → μ → Json → Read ρ) (blank : ρ) (v : Json) : Read ρ := do
  let slots ← schema.slots v
  let record ← slots.foldlM (fun r (m, x) => put r m x) blank
  schema.noneMissing v slots
  schema.noSurplus v
  return record

end Schema

end WirelessArchive.Json
