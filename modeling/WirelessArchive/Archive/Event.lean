import WirelessArchive.Archive.Error
import WirelessArchive.Profile.Exclusion
import WirelessArchive.Record.Error
import WirelessArchive.Version

/-!
# Events

What is told along the way: why a profile is left out of a backup, why a record is dropped from a
restore, and a final count.  No event carries a credential of a profile.
-/

namespace WirelessArchive

/-- How important an event is. -/
inductive Event.Level where
  | debug
  | warn
  deriving DecidableEq, Repr

/-- A value that an event carries. -/
inductive Event.Field where
  | count (n : Nat)
  | text (s : String)
  deriving DecidableEq, Repr

/-- Something that happened while a backup was written or read. -/
inductive Event where
  /-- A profile is kept out of a backup. -/
  | excluded (ssid : String) (reason : Exclusion)
  /-- A profile is left out of a backup because no reader would accept it. -/
  | invalid (ssid : String) (reason : Profile.Invalid)
  /-- A backup of `total` profiles has been written. -/
  | encoded (total written bytes : Nat)
  /-- A backup cannot be used at all. -/
  | discarded (error : ArchiveError) (bytes : Nat)
  /-- A name in a record is no flag of its kind. -/
  | unknownFlag (member name : String)
  /-- A record is dropped. -/
  | dropped (index : Nat) (reason : RecordError)
  /-- A record describes a profile that is never restored. -/
  | skipped (index : Nat) (ssid : String) (reason : Exclusion)
  /-- A backup has been read. -/
  | decoded (version : Version) (restored dropped excluded : Nat)
  deriving DecidableEq, Repr

namespace Event

/-- The level of each kind of event. -/
def level : Event → Level
  | invalid .. => .warn
  | discarded .. => .warn
  | dropped .. => .warn
  | _ => .debug

/-- The message of each kind of event. -/
def message : Event → String
  | excluded .. => "excluding network from backup"
  | invalid .. => "skipping invalid network"
  | encoded .. => "encoded network backup"
  | discarded .. => "discarding network backup"
  | unknownFlag .. => "ignoring unknown flag"
  | dropped .. => "dropping network record"
  | skipped .. => "skipping excluded network"
  | decoded .. => "decoded network backup"

/-- The named values of an event. -/
def fields : Event → List (String × Field)
  | excluded ssid reason => [("ssid", .text ssid), ("reason", .text reason.text)]
  | invalid ssid reason => [("ssid", .text ssid), ("reason", .text reason.message)]
  | encoded total written bytes =>
    [("total", .count total), ("encoded", .count written), ("bytes", .count bytes)]
  | discarded error bytes => [("error", .text error.message), ("bytes", .count bytes)]
  | unknownFlag member name => [("field", .text member), ("flag", .text name)]
  | dropped index reason =>
    [("error", .text (ArchiveError.corruptRecord index reason.message).message)]
  | skipped index ssid reason =>
    [("index", .count index), ("ssid", .text ssid), ("reason", .text reason.text)]
  | decoded version whole lost barred =>
    [("version", .text version.text), ("restored", .count whole), ("dropped", .count lost),
      ("excluded", .count barred)]

end Event

end WirelessArchive
