import Mathlib.Data.List.Forall2
import WirelessArchive.Proofs.Archive.RoundTrip
import WirelessArchive.Proofs.Record.Layout

/-!
# The layout of backups

Read as JSON with the order of its members kept, the text of a backup is an object of exactly three
members: the tag of the format, the current version, and one record for each profile that the backup
keeps, in their order and each in the layout that its profile tells.  White space apart, nothing of
this depends on how the text is printed.
-/

namespace WirelessArchive

/-- The value is the record object of a profile. -/
def IsRecordOf (p : Profile) (v : Json) : Prop :=
  ∃ members, v = .object members ∧ Record.Layout p members

theorem isRecordOf_map (profiles : List Profile) :
    List.Forall₂ IsRecordOf profiles (profiles.map fun p => (Record.ofProfile p).toJson) :=
  List.forall₂_map_right_iff.2 (List.forall₂_same.2 fun p _ => Record.layout_ofProfile p)

/-- Every backup has the same layout, in either way of printing it. -/
theorem encode_layout (profiles : List Profile) :
    ∃ records,
      List.Forall₂ IsRecordOf (profiles.filter fun p => p.isEligible && p.isValid) records ∧
      ∀ settings : Settings, Json.read (encode settings profiles).blob = .ok (.object
        [("format", .string "wifi-backup"), ("version", .string "1.0"),
          ("networks", .array records)]) := by
  rw [← written_eq]
  exact ⟨_, isRecordOf_map _, fun settings => read_encode settings profiles⟩

end WirelessArchive
