import WirelessArchive.Json.Printer

/-!
# Settings

What can be tuned about writing and reading backups, and the text of a settings file.
-/

namespace WirelessArchive

/-- The settings of a codec. -/
structure Settings where
  /-- The schema version of the settings file itself. -/
  schemaVersion : UInt32 := 1
  /-- Write indented instead of compact text. -/
  prettyPrint : Bool := false
  /-- Backups larger than this are refused before they are read. -/
  maxBlobBytes : UInt64 := 1048576
  deriving DecidableEq, Repr

namespace Settings

/-- The members of a settings file. -/
inductive Member where
  | schemaVersion
  | prettyPrint
  | maxBlobBytes
  deriving DecidableEq, Repr

/-- The key of a member. -/
def Member.key : Member → String
  | schemaVersion => "schema_version"
  | prettyPrint => "pretty_print"
  | maxBlobBytes => "max_blob_bytes"

/-- The members in declared order. -/
def Member.all : List Member := [schemaVersion, prettyPrint, maxBlobBytes]

/-- The member of a key. -/
def Member.ofKey? (key : String) : Option Member := Member.all.find? (·.key == key)

/-- The value of a member. -/
def member (s : Settings) : Member → Json
  | .schemaVersion => .word32 s.schemaVersion
  | .prettyPrint => .bool s.prettyPrint
  | .maxBlobBytes => .word64 s.maxBlobBytes

/-- The settings as an object. -/
def toJson (s : Settings) : Json := .object (Member.all.map fun m => (m.key, s.member m))

/-- The content of a settings file. -/
def fileText (s : Settings) : List UInt8 := s.toJson.print .indented

/-- The layout of the backups that are written. -/
def layout (s : Settings) : Json.Layout := if s.prettyPrint then .indented else .compact

end Settings

end WirelessArchive
