import WirelessArchive.Proofs.Json.RoundTrip
import WirelessArchive.Proofs.Settings.Reading
import WirelessArchive.Proofs.Text.Digits

/-!
# The text of a settings file

A file with settings holds an object with the three members, each on a line of its own and indented
by two spaces (`listing`).  The text says nothing but the settings: it is read as them, member for
member (`heldIn_fileText`).
-/

namespace WirelessArchive

namespace Text.Utf8

theorem encode_append (s t : String) : encode (s ++ t) = encode s ++ encode t := by
  rw [encode, String.toList_append, List.flatMap_append]
  rfl

/-- The bytes of a numeral are its digits. -/
theorem encode_toString (n : Nat) :
    encode (toString n) = Json.Printer.ascii (Nat.toDigits 10 n) := by
  rw [encode, Digits.toList_toString, Json.Printer.ascii, List.map_eq_flatMap]
  refine List.flatMap_congr fun c hc => ?_
  have hdigit : c.isDigit = true := Digits.isDigit_of_mem_toDigits hc
  rw [Char.isDigit_iff_toNat] at hdigit
  have hnine : '9'.toNat = 57 := rfl
  have hsize : c.utf8Size = 1 := by
    rw [Char.utf8Size_eq_one_iff, UInt32.le_iff_toNat_le]
    show c.toNat ≤ 127
    omega
  rw [String.utf8EncodeChar_eq_singleton hsize]
  rfl

end Text.Utf8

namespace Settings

/-! ## The text -/

/-- The settings, written out line by line. -/
def listing (s : Settings) : String :=
  "\x7b\n  \"schema_version\": " ++ toString s.schemaVersion.toNat ++
    ",\n  \"pretty_print\": " ++ toString s.prettyPrint ++
    ",\n  \"max_blob_bytes\": " ++ toString s.maxBlobBytes.toNat ++ "\n\x7d"

section

open Json.Printer Text.Utf8

/-- The printed object is the listing: between the values of the members stand fixed texts. -/
theorem fileText_eq (s : Settings) : s.fileText = encode s.listing := by
  have hfirst : 0x7B :: (lineBreak .indented 1 ++ string "schema_version" ++ keyMark .indented) =
      encode "\x7b\n  \"schema_version\": " := by decide +kernel
  have hsecond : 0x2C :: (lineBreak .indented 1 ++ string "pretty_print" ++ keyMark .indented) =
      encode ",\n  \"pretty_print\": " := by decide +kernel
  have hthird : 0x2C :: (lineBreak .indented 1 ++ string "max_blob_bytes" ++ keyMark .indented) =
      encode ",\n  \"max_blob_bytes\": " := by decide +kernel
  have hlast : lineBreak .indented 0 ++ [0x7D] = encode "\n\x7d" := by decide +kernel
  have hpretty : value .indented 1 (.bool s.prettyPrint) = encode (toString s.prettyPrint) := by
    cases s.prettyPrint <;> decide
  unfold listing
  simp only [encode_append, encode_toString, ← hpretty, ← hfirst, ← hsecond, ← hthird, ← hlast]
  show value .indented 0 (.object [(_, _), (_, _), (_, _)]) = _
  simp only [value, moreMembers, List.append_assoc, List.nil_append, List.cons_append]
  rfl

end

/-! ## What the text says -/

theorem spells_member (s : Settings) (m : Member) : s.Spells m (some (s.member m)) := by
  cases m with
  | schemaVersion => exact .given ⟨_, rfl⟩
  | prettyPrint => exact .given rfl
  | maxBlobBytes => exact .given ⟨_, rfl⟩

/-- The object that is written gives the settings. -/
theorem isSettings_written (s : Settings) :
    IsSettings (Member.all.map fun m => (m.key, s.member m)) s := by
  constructor
  · intro m
    have hkeys : (Member.all.map fun m => (m.key, s.member m)).map Prod.fst =
        Member.all.map Member.key := rfl
    rw [hkeys]
    cases m <;> decide
  · intro m
    have hmember : Json.member? (Member.all.map fun m => (m.key, s.member m)) m.key =
        some (s.member m) := by
      cases m <;> rfl
    rw [hmember]
    exact s.spells_member m

theorem fits_toJson (s : Settings) : Json.Fits 1 s.toJson := by
  refine .object fun entry hentry => ?_
  obtain ⟨m, -, rfl⟩ := List.mem_map.1 hentry
  cases m with
  | schemaVersion => exact .integer 0 _ _
  | prettyPrint => exact .bool 0 _
  | maxBlobBytes => exact .integer 0 _ _

/-- The text of a settings file gives the settings. -/
theorem read_fileText (s : Settings) : read s.fileText = .ok s :=
  (read_object_iff (Json.read_print .indented (s.fits_toJson.mono (by decide)))).2
    s.isSettings_written

/-! ## Files -/

/-- The content of a file holds the settings: it is the text that lists them, and it is read as
these settings. -/
structure HeldIn (s : Settings) (content : List UInt8) : Prop where
  text : content.toByteArray = s.listing.toUTF8
  reads : read content = .ok s

theorem heldIn_fileText (s : Settings) : s.HeldIn s.fileText where
  text := by
    rw [fileText_eq, String.toUTF8_eq_toByteArray]
    exact String.utf8Encode_toList
  reads := s.read_fileText

end Settings

end WirelessArchive
