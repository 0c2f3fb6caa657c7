import WirelessArchive.Profile.Basic

/-!
# Why a record is dropped
-/

namespace WirelessArchive

/-- Why a single record cannot be turned into a profile. -/
inductive RecordError where
  /-- It does not have the shape of a record. -/
  | malformed (detail : String)
  /-- A proxy mode lacks a member that it needs. -/
  | missingField (name : String)
  | tooManyWepKeys (count : Nat)
  /-- The profile that it describes is invalid. -/
  | invalid (reason : Profile.Invalid)
  deriving DecidableEq, Repr

/-- The wording of each error. -/
def RecordError.message : RecordError → String
  | malformed detail => "malformed record: " ++ detail
  | missingField name => "missing field `" ++ name ++ "`"
  | tooManyWepKeys count => "too many WEP keys: " ++ toString count
  | invalid reason => "decoded profile is invalid: " ++ reason.message

end WirelessArchive
