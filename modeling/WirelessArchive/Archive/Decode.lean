import WirelessArchive.Archive.Envelope
import WirelessArchive.Archive.Event
import WirelessArchive.Json.Reader
import WirelessArchive.Record.Basic
import WirelessArchive.Settings.Basic

/-!
# Reading backups

Anything that breaks the text as a whole (its size, the JSON, the envelope, the header) discards
it.  After that each record stands on its own: it is restored, dropped because it is malformed, or
excluded because its profile is never restored.
-/

namespace WirelessArchive

/-- What becomes of a record. -/
inductive Outcome where
  | restored (profile : Profile)
  | dropped (reason : RecordError)
  | excluded (ssid : String) (reason : Exclusion)
  deriving DecidableEq, Repr

namespace Outcome

/-- What becomes of a value that stands as a record. -/
def ofJson (v : Json) : Outcome :=
  match Record.decode v with
  | .error reason => dropped reason
  | .ok profile =>
    match profile.exclusion? with
    | some reason => excluded profile.ssid reason
    | none => restored profile

/-- The profile of a record that is restored. -/
def profile? : Outcome → Option Profile
  | restored p => some p
  | _ => none

/-- Whether the record is dropped. -/
def isDropped : Outcome → Bool
  | dropped _ => true
  | _ => false

/-- Whether the record is excluded. -/
def isExcluded : Outcome → Bool
  | excluded _ _ => true
  | _ => false

/-- The event of a record that is not restored. -/
def event? (index : Nat) : Outcome → Option Event
  | restored _ => none
  | dropped reason => some (.dropped index reason)
  | excluded ssid reason => some (.skipped index ssid reason)

end Outcome

/-- The names in a record that are no flags; a value that is no record has none. -/
def unknownFlagEvents (v : Json) : List Event :=
  match Record.ofJson v with
  | .ok record => record.unknownFlags.map fun (member, name) => .unknownFlag member name
  | .error _ => []

/-- What is told about the record at an index. -/
def recordEvents (index : Nat) (v : Json) : List Event :=
  unknownFlagEvents v ++ ((Outcome.ofJson v).event? index).toList

/-- The outcome of reading a backup. -/
structure Report where
  /-- The version that the backup was written with. -/
  version : Version
  /-- The restored profiles, in the order of the backup. -/
  profiles : List Profile := []
  /-- The number of records that were malformed. -/
  dropped : Nat := 0
  /-- The number of records that are never restored. -/
  excluded : Nat := 0
  deriving DecidableEq, Repr

namespace Report

/-- The report on the outcomes of all records. -/
def ofOutcomes (version : Version) (outcomes : List Outcome) : Report :=
  { version
    profiles := outcomes.filterMap Outcome.profile?
    dropped := outcomes.countP Outcome.isDropped
    excluded := outcomes.countP Outcome.isExcluded }

/-- Whether every record was restored. -/
def isComplete (r : Report) : Bool := r.dropped == 0 && r.excluded == 0

/-- The final event of a restore. -/
def event (r : Report) : Event := .decoded r.version r.profiles.length r.dropped r.excluded

/-- What was restored, in a sentence. -/
def summary (r : Report) : String :=
  "Restored " ++ toString r.profiles.length ++ " network(s) from backup v" ++ r.version.text ++
    (if r.dropped = 0 then "" else ", dropped " ++ toString r.dropped ++ " corrupt record(s)") ++
    (if r.excluded = 0 then "" else ", skipped " ++ toString r.excluded ++ " excluded network(s)")

end Report

/-- The outcome of reading a backup and what was told on the way. -/
structure Restore where
  report : Except ArchiveError Report
  events : List Event

/-- The value that a text within the size limit holds, which must be an object. -/
def readRoot (settings : Settings) (blob : List UInt8) : Except ArchiveError Json :=
  let limit := settings.maxBlobBytes.toNat
  if limit < blob.length then .error (.tooLarge blob.length limit)
  else
    match Json.read blob with
    | .error stop => .error (.brokenFraming (stop.describe blob))
    | .ok (.object members) => .ok (.object members)
    | .ok _ => .error (.brokenFraming "top level is not an object")

/-- The version and the records of a document. -/
def openEnvelope (root : Json) : Except ArchiveError (Version × List Json) :=
  match Envelope.ofJson root with
  | .error mismatch => .error (.shape mismatch.message)
  | .ok envelope => envelope.checkHeader.map (·, envelope.networks)

/-- Reads a backup and reports what was restored. -/
def decode (settings : Settings) (blob : List UInt8) : Restore :=
  match readRoot settings blob >>= openEnvelope with
  | .error error => ⟨.error error, []⟩
  | .ok (version, networks) =>
    let report := Report.ofOutcomes version (networks.map Outcome.ofJson)
    let events := networks.zipIdx.flatMap fun (v, index) => recordEvents index v
    ⟨.ok report, events ++ [report.event]⟩

/-- Reads a backup, giving up the report: a backup that cannot be used is discarded. -/
def decodeProfiles (settings : Settings) (blob : List UInt8) : Option (List Profile) × List Event :=
  let restore := decode settings blob
  match restore.report with
  | .ok report => (some report.profiles, restore.events)
  | .error error => (none, restore.events ++ [.discarded error blob.length])

end WirelessArchive
