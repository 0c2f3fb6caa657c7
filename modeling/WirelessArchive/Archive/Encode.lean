import WirelessArchive.Archive.Envelope
import WirelessArchive.Archive.Event
import WirelessArchive.Record.Basic
import WirelessArchive.Settings.Basic

/-!
# Writing backups

A backup holds one record for each profile that is eligible and valid, in the order of the list.
What is left out is told by events.
-/

namespace WirelessArchive

namespace Profile

/-- Whether a profile is valid. -/
def isValid (p : Profile) : Bool := p.validate.isOk

/-- The event of a profile that is kept out of a backup. -/
def exclusionEvent? (p : Profile) : Option Event := p.exclusion?.map (.excluded p.ssid ·)

/-- The event of a profile that is left out because it is invalid. -/
def invalidEvent? (p : Profile) : Option Event :=
  match p.validate with
  | .ok () => none
  | .error reason => some (.invalid p.ssid reason)

end Profile

/-- The profiles that may leave the device, in their order. -/
def eligible (profiles : List Profile) : List Profile := profiles.filter Profile.isEligible

/-- The events of the profiles that may not leave the device. -/
def exclusionEvents (profiles : List Profile) : List Event :=
  profiles.filterMap Profile.exclusionEvent?

/-- The profiles that a backup holds. -/
def written (profiles : List Profile) : List Profile := (eligible profiles).filter Profile.isValid

/-- The document that holds a list of profiles. -/
def document (profiles : List Profile) : Json :=
  (Envelope.current (profiles.map fun p => (Record.ofProfile p).toJson)).toJson

/-- A backup and what was told while it was written. -/
structure Backup where
  blob : List UInt8
  events : List Event
  deriving DecidableEq, Repr

/-- The backup of a list of profiles. -/
def encode (settings : Settings) (profiles : List Profile) : Backup :=
  let kept := written profiles
  let blob := (document kept).print settings.layout
  let events :=
    exclusionEvents profiles ++ (eligible profiles).filterMap Profile.invalidEvent? ++
      [.encoded profiles.length kept.length blob.length]
  ⟨blob, events⟩

end WirelessArchive
