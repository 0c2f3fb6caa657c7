import WirelessArchive.Archive.Error
import WirelessArchive.Json.Schema
import WirelessArchive.Version

/-!
# The envelope of a backup

The root object of a backup names its format and version and holds the records.  The records are
kept as raw values, so that each can fail on its own.  A format or version that is not given reads
as empty and is reported when the header is checked.
-/

namespace WirelessArchive

/-- The root object of a backup. -/
structure Envelope where
  format : String := ""
  version : String := ""
  networks : List Json := []

namespace Envelope

/-- What marks a text as a backup, before its version is looked at. -/
def formatTag : String := "wifi-backup"

/-- The members of the root object. -/
inductive Member where
  | format
  | version
  | networks
  deriving DecidableEq, Repr

/-- The key of a member. -/
def Member.key : Member → String
  | format => "format"
  | version => "version"
  | networks => "networks"

/-- The members in declared order and in the order of their keys. -/
def schema : Json.Schema Member where
  name := "struct BlobEnvelope"
  key := Member.key
  declared := [.format, .version, .networks]
  byKey := [.format, .networks, .version]
  mandatory := [.networks]

/-- The envelope that is written around records. -/
def current (networks : List Json) : Envelope := ⟨formatTag, Version.current.text, networks⟩

/-- The root object of an envelope. -/
def toJson (e : Envelope) : Json :=
  .object
    [(Member.format.key, .string e.format), (Member.version.key, .string e.version),
      (Member.networks.key, .array e.networks)]

/-- Puts a member that is given into the envelope. -/
def put (e : Envelope) : Member → Json → Json.Read Envelope
  | .format, v => (Json.asString v).map ({ e with format := · })
  | .version, v => (Json.asString v).map ({ e with version := · })
  | .networks, v => (Json.asList .ok v).map ({ e with networks := · })

/-- The envelope that a value gives. -/
def ofJson (v : Json) : Json.Read Envelope := schema.read put {} v

/-- In what way a header is malformed. -/
inductive HeaderFault where
  | missingFormat
  | unknownFormat (format : String)
  | missingVersion
  | badVersion (error : Version.ParseError)
  deriving DecidableEq, Repr

/-- The wording of each fault. -/
def HeaderFault.message : HeaderFault → String
  | missingFormat => "missing format tag"
  | unknownFormat format => "unknown format '" ++ format ++ "'"
  | missingVersion => "missing version"
  | badVersion error => error.message

/-- The version that a header gives: the format is judged first, then the version. -/
def headerVersion (e : Envelope) : Except HeaderFault Version :=
  if e.format = "" then .error .missingFormat
  else if e.format ≠ formatTag then .error (.unknownFormat e.format)
  else if e.version = "" then .error .missingVersion
  else
    match Version.parse e.version with
    | .ok v => .ok v
    | .error error => .error (.badVersion error)

/-- The version of a backup that can be read. -/
def checkHeader (e : Envelope) : Except ArchiveError Version :=
  match e.headerVersion with
  | .error fault => .error (.malformedHeader fault.message)
  | .ok v =>
    if v.isReadable then .ok v
    else .error (.unsupportedVersion v.text Version.current.major)

end Envelope

end WirelessArchive
