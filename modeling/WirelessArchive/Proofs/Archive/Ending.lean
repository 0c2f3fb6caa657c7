import WirelessArchive.Proofs.Archive.RoundTrip
import WirelessArchive.Proofs.Json.Ending

/-!
# A damaged end is noticed

A backup is one object, so its text cannot be told from a longer one before its last brace, and is
complete with it.  A backup that lost some of its end is therefore rejected wherever it was cut, and
so is one with anything but white space behind it.
-/

namespace WirelessArchive

theorem encode_blob_eq (settings : Settings) (profiles : List Profile) :
    ∃ middle, (encode settings profiles).blob = 0x7B :: (middle ++ [0x7D]) :=
  Json.print_object settings.layout _

theorem mem_of_append_eq_concat {α : Type} {kept lost front : List α} {a : α}
    (h : kept ++ lost = front ++ [a]) (hlost : lost ≠ []) : a ∈ lost := by
  have hlast := congrArg List.getLast? h
  rw [List.getLast?_append, List.getLast?_concat, List.getLast?_eq_some_getLast hlost,
    Option.some_or] at hlast
  exact Option.some.inj hlast ▸ List.getLast_mem hlost

/-- What is left of a backup that was cut is no text of JSON. -/
theorem read_cut {settings : Settings} {profiles : List Profile} {kept lost : List UInt8}
    (h : (encode settings profiles).blob = kept ++ lost) (hlost : lost ≠ []) (v : Json) :
    Json.read kept ≠ .ok v := by
  intro hread
  obtain ⟨middle, hmiddle⟩ := encode_blob_eq settings profiles
  have hwhole := read_encode settings profiles
  rw [h] at hwhole hmiddle
  cases kept with
  | nil => cases hread
  | cons b kept =>
    obtain ⟨rfl, -⟩ := List.cons.inj hmiddle
    -- the brace that closes the object stands in the part that was lost
    have htext : (0x7B :: kept) ++ lost = (0x7B :: middle) ++ [0x7D] := hmiddle
    have hbrace : 0x7D ∈ lost := mem_of_append_eq_concat htext hlost
    have hspace := Json.isSpace_of_read_append hread hwhole _ hbrace
    cases hspace

/-- The end of a backup is where its writer left it: a shorter text is rejected, and behind it white
space is passed over and everything else rejected. -/
structure EndNoticed (writer reader : Settings) (profiles : List Profile) : Prop where
  cut : ∀ kept lost, (encode writer profiles).blob = kept ++ lost → lost ≠ [] →
    (kept.length ≤ reader.maxBlobBytes.toNat →
      ∃ detail, (decode reader kept).report = .error (.brokenFraming detail)) ∧
    (reader.maxBlobBytes.toNat < kept.length → (decode reader kept).report =
      .error (.tooLarge kept.length reader.maxBlobBytes.toNat)) ∧
    (decodeProfiles reader kept).1 = none
  space : ∀ tail, ((encode writer profiles).blob ++ tail).length ≤ reader.maxBlobBytes.toNat →
    (∀ b ∈ tail, b = 0x20 ∨ b = 0x09 ∨ b = 0x0A ∨ b = 0x0D) →
    decode reader ((encode writer profiles).blob ++ tail) =
      decode reader (encode writer profiles).blob
  other : ∀ tail, ((encode writer profiles).blob ++ tail).length ≤ reader.maxBlobBytes.toNat →
    (∃ b ∈ tail, b ≠ 0x20 ∧ b ≠ 0x09 ∧ b ≠ 0x0A ∧ b ≠ 0x0D) →
    ∃ detail, (decode reader ((encode writer profiles).blob ++ tail)).report =
      .error (.brokenFraming detail)

theorem isSpace_iff {b : UInt8} :
    Json.isSpace b = true ↔ b = 0x20 ∨ b = 0x09 ∨ b = 0x0A ∨ b = 0x0D := by
  simp [Json.isSpace, or_assoc, or_left_comm]

/-- Whatever happens to the end of a backup is noticed. -/
theorem end_noticed (writer reader : Settings) (profiles : List Profile) :
    EndNoticed writer reader profiles := by
  obtain ⟨middle, hmiddle⟩ := encode_blob_eq writer profiles
  have hread := read_encode writer profiles
  constructor
  case cut =>
    intro kept lost h hlost
    have hbroken : kept.length ≤ reader.maxBlobBytes.toNat →
        ∃ detail, (decode reader kept).report = .error (.brokenFraming detail) :=
      fun hsize => report_brokenFraming hsize fun _ => read_cut h hlost _
    refine ⟨hbroken, report_tooLarge, ?_⟩
    obtain hsize | hsize := Nat.lt_or_ge reader.maxBlobBytes.toNat kept.length
    · exact decodeProfiles_of_error (report_tooLarge hsize)
    · obtain ⟨detail, hreport⟩ := hbroken hsize
      exact decodeProfiles_of_error hreport
  case space =>
    intro tail hsize htail
    have hsize' : (encode writer profiles).blob.length ≤ reader.maxBlobBytes.toNat := by
      rw [List.length_append] at hsize
      omega
    have hlonger : Json.read ((encode writer profiles).blob ++ tail) =
        .ok (document (written profiles)) := by
      rw [hmiddle] at hread ⊢
      exact Json.read_append_space hread fun b hb => isSpace_iff.2 (htail b hb)
    rw [decode, decode, readRoot_of_holds ⟨hsize, hlonger⟩, readRoot_of_holds ⟨hsize', hread⟩]
  case other =>
    rintro tail hsize ⟨b, hb, hother⟩
    refine report_brokenFraming hsize fun members hmembers => ?_
    rw [hmiddle] at hread hmembers
    have hspace := isSpace_iff.1 (Json.isSpace_of_read_append hread hmembers b hb)
    simp [hother] at hspace

end WirelessArchive
