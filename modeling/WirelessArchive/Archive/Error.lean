import WirelessArchive.Json.Fault
import WirelessArchive.Json.Shape

/-!
# Errors of backups and settings
-/

namespace WirelessArchive

/-- What can go wrong with a backup or a settings file. -/
inductive ArchiveError where
  /-- The backup is of a major version that cannot be read. -/
  | unsupportedVersion (found : String) (supported : UInt32)
  /-- The header is missing or not in the expected form. -/
  | malformedHeader (detail : String)
  /-- The text is not a JSON object; nothing can be recovered. -/
  | brokenFraming (detail : String)
  /-- One record is malformed or incomplete. -/
  | corruptRecord (index : Nat) (reason : String)
  /-- The backup is larger than the limit. -/
  | tooLarge (size limit : Nat)
  | settings (detail : String)
  | file (detail : String)
  /-- The text is JSON without the shape of a backup. -/
  | shape (detail : String)
  deriving DecidableEq, Repr

namespace ArchiveError

/-- The wording of each error. -/
def message : ArchiveError → String
  | unsupportedVersion found supported =>
    "Unsupported backup version " ++ found ++ " (supported major version: " ++
      toString supported.toNat ++ ")"
  | malformedHeader detail => "Malformed backup header: " ++ detail
  | brokenFraming detail => "Backup framing is corrupt: " ++ detail
  | corruptRecord index reason =>
    "Network record " ++ toString index ++ " is corrupt: " ++ reason
  | tooLarge size limit =>
    "Backup blob is " ++ toString size ++ " bytes, limit is " ++ toString limit
  | settings detail => "Configuration error: " ++ detail
  | file detail => "I/O error: " ++ detail
  | shape detail => "JSON error: " ++ detail

/-- Every error but that of a single record rejects the whole backup. -/
def isFatal : ArchiveError → Bool
  | corruptRecord _ _ => false
  | _ => true

/-- Whether the version of the backup is the cause. -/
def isUnsupportedVersion : ArchiveError → Bool
  | unsupportedVersion _ _ => true
  | _ => false

end ArchiveError

end WirelessArchive
