import WirelessArchive.Proofs.Archive.Agreement
import WirelessArchive.Proofs.Json.Spacing
import WirelessArchive.Proofs.Record.Arrangement

/-!
# Documents in another arrangement

A restore tells the same and gives the same report or error for two documents that differ in white
space between tokens, in the order of the members of the root object, of records and of their
addressing parts, and in members that a later one overrides.  This holds of the records that are
lost, too: which of several faults is reported does not depend on their order in the text.  If the
lists of flags are replaced by others with the same entries, the report stays
(`arrangement_unseen`).
-/

namespace WirelessArchive

/-- The members of a document, of its records and of their addressing parts change places, or are
left out if they are overridden, and the lists of flags are changed as `flags` allows. -/
abbrev Envelope.Rearranged (flags : Json → Json → Prop) : Json → Json → Prop :=
  schema.Arranged (MemberAlike (Record.Rearranged flags))

/-! ## Records -/

theorem Outcome.ofJson_of_rearranged {v v' : Json} (h : Record.Rearranged Eq v v') :
    ofJson v = ofJson v' := by
  rw [ofJson, ofJson, Record.decode, Record.decode, Record.ofJson_of_rearranged h]

theorem recordEvents_of_rearranged {v v' : Json} (index : Nat) (h : Record.Rearranged Eq v v') :
    recordEvents index v = recordEvents index v' := by
  rw [recordEvents, recordEvents, Outcome.ofJson_of_rearranged h, unknownFlagEvents,
    unknownFlagEvents, Record.ofJson_of_rearranged h]

/-- A record that denotes no profile is dropped, for whatever reason. -/
theorem Outcome.countsAlike_of_reflagged {v v' : Json} (h : Record.Rearranged SameEntries v v') :
    (ofJson v).CountsAlike (ofJson v') := by
  have hdecode := Record.decode_of_reflagged h
  unfold ofJson
  cases hv : Record.decode v with
  | ok p =>
    rw [(hdecode p).1 hv]
    exact ⟨rfl, rfl, rfl⟩
  | error reason =>
    cases hv' : Record.decode v' with
    | ok p =>
      rw [(hdecode p).2 hv'] at hv
      cases hv
    | error reason' => exact ⟨rfl, rfl, rfl⟩

/-! ## Documents -/

section Documents

variable {settings : Settings} {blob other : List UInt8} {root root' : Json}

theorem Envelope.alike_of_rearranged {flags : Json → Json → Prop}
    (h : Rearranged flags root root') :
    schema.Alike (MemberAlike (Record.Rearranged flags)) root root' :=
  h.alike fields.key_injective memberAlike_refl (memberAlike_trans fun _ _ _ => .trans)
    fun _ _ _ hx => hx

theorem open_of_rearranged {flags : Json → Json → Prop}
    (hsize : blob.length ≤ settings.maxBlobBytes.toNat)
    (hsize' : other.length ≤ settings.maxBlobBytes.toNat) (hread : Json.read blob = .ok root)
    (hread' : Json.read other = .ok root') (h : Envelope.Rearranged flags root root') :
    OpensAlike (Record.Rearranged flags) (readRoot settings blob >>= openEnvelope)
      (readRoot settings other >>= openEnvelope) :=
  open_agree .refl hsize hsize' hread hread' (Envelope.alike_of_rearranged h)

/-- Of two texts that are read, neither the white space between tokens, nor the places of the
members, nor overridden members show in a restore; nor do the places and the number of the entries
in lists of flags show in its report. -/
theorem arrangement_unseen (hsize : blob.length ≤ settings.maxBlobBytes.toNat)
    (hsize' : other.length ≤ settings.maxBlobBytes.toNat) (hread : Json.read blob = .ok root)
    (hread' : Json.read other = .ok root') :
    (Json.unspaced blob = Json.unspaced other → decode settings blob = decode settings other) ∧
    (Envelope.Rearranged Eq root root' → decode settings blob = decode settings other) ∧
    (Envelope.Rearranged SameEntries root root' →
      (decode settings blob).report = (decode settings other).report) := by
  have hrearranged : Envelope.Rearranged Eq root root' →
      decode settings blob = decode settings other := fun h =>
    decode_of_opensAlike (fun v v' hv => by
      rw [Outcome.ofJson_of_rearranged hv]
      exact ⟨rfl, rfl, rfl⟩) (fun _ _ index => recordEvents_of_rearranged index)
      (open_of_rearranged hsize hsize' hread hread' h)
  refine ⟨fun hspace => hrearranged ?_, hrearranged, fun h => ?_⟩
  · rw [Json.eq_of_unspaced_eq hread hread' hspace]
    exact .refl _
  · exact report_of_opensAlike (fun _ _ => Outcome.countsAlike_of_reflagged)
      (open_of_rearranged hsize hsize' hread hread' h)

end Documents

/-- A record with a host that is overridden, and names with quotation marks and white space. -/
def scatteredRecord (protocols : List String) : Json :=
  .object
    [("allowedProtocols", .strings protocols), ("ssid", .string "\" lab \t\\"),
      ("ipConfiguration", .object
        [("proxyHost", .string "old"), ("proxyPort", .word16 8080), ("proxyHost", .string "new"),
          ("proxySettings", .string "STATIC")]),
      ("security", .string "NONE")]

/-- The same record in another arrangement. -/
def arrangedRecord (protocols : List String) : Json :=
  .object
    [("ssid", .string "\" lab \t\\"), ("allowedProtocols", .strings protocols),
      ("ipConfiguration", .object
        [("proxyPort", .word16 8080), ("proxySettings", .string "STATIC"),
          ("proxyHost", .string "new")]),
      ("security", .string "NONE")]

/-- A document with this record and one that has several faults. -/
def scatteredDocument (protocols : List String) : Json :=
  .object
    [("version", .string "0.9"),
      ("networks", .array
        [scatteredRecord protocols, .object [("ssid", .null), ("hiddenSsid", .natural 3)]]),
      ("format", .string "wifi-backup"), ("version", .string "1.0")]

/-- The same document in another arrangement. -/
def arrangedDocument (protocols : List String) : Json :=
  .object
    [("networks", .array
        [arrangedRecord protocols, .object [("hiddenSsid", .natural 3), ("ssid", .null)]]),
      ("version", .string "1.0"), ("format", .string "wifi-backup")]

section Scattered

variable {flags : Json → Json → Prop} {protocols protocols' : List String}

theorem rearranged_scatteredRecord (h : flags (.strings protocols) (.strings protocols')) :
    Record.Rearranged flags (scatteredRecord protocols) (arrangedRecord protocols') := by
  have haddressing : AddressingRecord.Rearranged
      (.object [("proxyHost", .string "old"), ("proxyPort", .word16 8080),
        ("proxyHost", .string "new"), ("proxySettings", .string "STATIC")])
      (.object [("proxyPort", .word16 8080), ("proxySettings", .string "STATIC"),
        ("proxyHost", .string "new")]) :=
    .trans (.drop [] _ (by decide)) (.swap [_] [] (by decide))
  have hkeys : "allowedProtocols" ≠ "ssid" := by decide
  refine .trans (.swap [] _ hkeys) ?_
  refine .trans (.member [_] _ (m := Record.Member.protocols) h) ?_
  exact .member [_, _] [_] (m := Record.Member.ipConfiguration) haddressing

theorem rearranged_scatteredDocument (h : flags (.strings protocols) (.strings protocols')) :
    Envelope.Rearranged flags (scatteredDocument protocols) (arrangedDocument protocols') := by
  have hfaulty : Record.Rearranged flags (.object [("ssid", .null), ("hiddenSsid", .natural 3)])
      (.object [("hiddenSsid", .natural 3), ("ssid", .null)]) :=
    .swap [] [] (by decide)
  have hnetworks : Json.ItemsAlike (Record.Rearranged flags) _ _ :=
    .array (.cons (rearranged_scatteredRecord h) (.cons hfaulty .nil))
  refine .trans (.drop [] _ (by simp)) ?_
  refine .trans (.swap [_] [] (by decide)) ?_
  exact .member [] _ (m := Envelope.Member.networks) hnetworks

end Scattered

theorem arrangement_unseen_of_scattered :
    decode {} ((scatteredDocument ["RSN", "WPA9", "WPA"]).print .compact) =
      decode {} ((scatteredDocument ["RSN", "WPA9", "WPA"]).print .indented) ∧
    decode {} ((scatteredDocument ["RSN", "WPA9", "WPA"]).print .compact) =
      decode {} ((arrangedDocument ["RSN", "WPA9", "WPA"]).print .indented) ∧
    (decode {} ((scatteredDocument ["RSN", "WPA9", "WPA"]).print .compact)).report =
      (decode {} ((arrangedDocument ["WPA", "RSN", "WPA", "WPA9"]).print .compact)).report ∧
    (decode {} ((scatteredDocument ["RSN", "WPA9", "WPA"]).print .compact)).events =
      [.unknownFlag "allowedProtocols" "WPA9",
        .dropped 1 (.malformed "invalid type: integer `3`, expected a boolean"),
        .decoded ⟨1, 0⟩ 1 1 0] := by
  have hfits : ∀ protocols, Json.Fits 5 (scatteredDocument protocols) ∧
      Json.Fits 5 (arrangedDocument protocols) := by
    intro protocols
    simp [scatteredDocument, arrangedDocument, scatteredRecord, arrangedRecord, Json.strings,
      Json.word16, Json.fits_object_iff, Json.fits_array_iff, Json.fits_natural, Json.Fits.null,
      Json.Fits.string]
  have hscattered : ∀ layout protocols, Json.read ((scatteredDocument protocols).print layout) =
      .ok (scatteredDocument protocols) := fun layout protocols =>
    Json.read_print layout ((hfits protocols).1.mono (by decide))
  have harranged : ∀ layout protocols, Json.read ((arrangedDocument protocols).print layout) =
      .ok (arrangedDocument protocols) := fun layout protocols =>
    Json.read_print layout ((hfits protocols).2.mono (by decide))
  have hentries : SameEntries (.strings ["RSN", "WPA9", "WPA"])
      (.strings ["WPA", "RSN", "WPA", "WPA9"]) :=
    .array fun v => by
      simp only [List.map, List.mem_cons, List.not_mem_nil, or_false]
      tauto
  refine ⟨?_, ?_, ?_, ?_⟩
  · exact (arrangement_unseen (by decide +kernel) (by decide +kernel) (hscattered _ _)
      (hscattered _ _)).1 (by decide +kernel)
  · exact (arrangement_unseen (by decide +kernel) (by decide +kernel) (hscattered _ _)
      (harranged _ _)).2.1 (rearranged_scatteredDocument rfl)
  · exact (arrangement_unseen (by decide +kernel) (by decide +kernel) (hscattered _ _)
      (harranged _ _)).2.2 (rearranged_scatteredDocument hentries)
  · decide +kernel

end WirelessArchive
