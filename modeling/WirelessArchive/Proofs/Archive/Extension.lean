import WirelessArchive.Proofs.Archive.Verdict
import WirelessArchive.Proofs.Record.Extension
import WirelessArchive.Proofs.Record.Members

/-!
# Backups of newer writers

A writer of a newer minor version may add members to the root object and extend the records.  Such a
backup is read as the backup without the additions: every record has the outcome that it had, lost
ones included, and only the minor version that is reported may differ (`accepted_of_extended`).
-/

namespace WirelessArchive

open Envelope (IsEnvelope NamesVersion)
open Json (Fits)

namespace Envelope

/-- A version may be replaced by one with the same major number; another value stays. -/
inductive VersionExtended : Json → Json → Prop where
  | same (v : Json) : VersionExtended v v
  | minor {text text' : String} {major minor minor' : UInt32} :
    Version.parse text = .ok ⟨major, minor⟩ → Version.parse text' = .ok ⟨major, minor'⟩ →
    VersionExtended (.string text) (.string text')

/-- The records of a list may be extended; another value stays. -/
inductive NetworksExtended : Json → Json → Prop where
  | same (v : Json) : NetworksExtended v v
  | array {networks networks' : List Json} : List.Forall₂ Record.Extended networks networks' →
    NetworksExtended (.array networks) (.array networks')

/-- How the value of a member may be extended. -/
def MemberExtended : Member → Json → Json → Prop
  | .format => Eq
  | .version => VersionExtended
  | .networks => NetworksExtended

/-- The members of a root object stay or are extended, and members under other keys may be added. -/
abbrev Extended : Json → Json → Prop := schema.Alike MemberExtended

theorem memberExtended_refl (m : Member) (x : Json) : MemberExtended m x x := by
  cases m with
  | format => rfl
  | version => exact .same x
  | networks => exact .same x

theorem VersionExtended.trans {v w u : Json} (h : VersionExtended v w)
    (h' : VersionExtended w u) : VersionExtended v u := by
  cases h with
  | same => exact h'
  | minor hv hw =>
    cases h' with
    | same => exact .minor hv hw
    | minor hw' hu =>
      obtain ⟨rfl, -⟩ := Version.mk.inj (Except.ok.inj (hw.symm.trans hw'))
      exact .minor hv hu

theorem NetworksExtended.trans {v w u : Json} (h : NetworksExtended v w)
    (h' : NetworksExtended w u) : NetworksExtended v u := by
  cases h with
  | same => exact h'
  | array h =>
    cases h' with
    | same => exact .array h
    | array h' =>
      exact .array (Json.forall₂_trans (fun _ _ _ => .trans Record.memberExtended_trans) h h')

theorem memberExtended_trans (m : Member) (x y z : Json) (h : MemberExtended m x y)
    (h' : MemberExtended m y z) : MemberExtended m x z := by
  cases m with
  | format => exact Eq.trans h h'
  | version => exact VersionExtended.trans h h'
  | networks => exact NetworksExtended.trans h h'

variable {members members' : List (String × Json)}

theorem exists_member?_of_extended (h : Extended (.object members) (.object members')) {m : Member}
    {x : Json} (hx : Json.member? members m.key = some x) :
    ∃ x', Json.member? members' m.key = some x' ∧ MemberExtended m x x' := by
  cases h with
  | same => exact ⟨x, hx, memberExtended_refl m x⟩
  | object h =>
    have hm := h m
    unfold schema at hm
    rw [hx] at hm
    generalize Json.member? members' m.key = x' at hm ⊢
    cases hm with
    | some hm => exact ⟨_, rfl, hm⟩

/-- The major version stays. -/
theorem namesVersion_of_extended (h : Extended (.object members) (.object members')) {v : Version}
    (hv : NamesVersion members v) : ∃ minor, NamesVersion members' { v with minor } := by
  obtain ⟨hformat, text, htext, hparse⟩ := hv
  obtain ⟨_, hformat', rfl⟩ := exists_member?_of_extended h (m := .format) hformat
  obtain ⟨x, htext', hx⟩ := exists_member?_of_extended h (m := .version) htext
  cases hx with
  | same => exact ⟨v.minor, hformat', text, htext', hparse⟩
  | @minor _ text' major _ minor' hold hnew =>
    obtain rfl := Except.ok.inj (hparse.symm.trans hold)
    exact ⟨minor', hformat', text', htext', hnew⟩

/-- Every record keeps its outcome. -/
theorem networks_of_extended (h : Extended (.object members) (.object members'))
    {networks : List Json} (hn : Json.member? members "networks" = some (.array networks)) :
    ∃ networks', Json.member? members' "networks" = some (.array networks') ∧
      networks'.map Outcome.ofJson = networks.map Outcome.ofJson := by
  obtain ⟨x, hn', hx⟩ := exists_member?_of_extended h (m := .networks) hn
  cases hx with
  | same => exact ⟨networks, hn', rfl⟩
  | @array _ networks' hx =>
    refine ⟨networks', hn', ?_⟩
    clear hn hn'
    induction hx with
    | nil => rfl
    | cons hrecord _ ih => rw [List.map_cons, List.map_cons, ih, Outcome.ofJson_of_extended hrecord]

end Envelope

/-- A backup is read like the one that it extends. -/
theorem accepted_of_extended {settings : Settings} {blob other : List UInt8} {root root' : Json}
    {report : Report} (h : (decode settings blob).report = .ok report)
    (hroot : Json.read blob = .ok root) (hroot' : Json.read other = .ok root')
    (hextended : Envelope.Extended root root') (hsize : other.length ≤ settings.maxBlobBytes.toNat) :
    ∃ minor, (decode settings other).report =
      .ok { report with version := { report.version with minor } } := by
  cases h ▸ verdict settings blob with
  | @accepted members version networks hholds _ hv hmajor hnetworks =>
    obtain rfl : root = .object members := Except.ok.inj (hroot.symm.trans hholds.text)
    obtain ⟨members', rfl⟩ : ∃ members', root' = .object members' := by
      cases hextended with
      | same => exact ⟨members, rfl⟩
      | object => exact ⟨_, rfl⟩
    obtain ⟨minor, hv'⟩ := Envelope.namesVersion_of_extended hextended hv
    obtain ⟨networks', hnetworks', houtcomes⟩ := Envelope.networks_of_extended hextended hnetworks
    refine ⟨minor, ?_⟩
    rw [report_accepted ⟨hsize, hroot'⟩ (hv'.isEnvelope hnetworks') hv' hmajor hnetworks',
      houtcomes]
    rfl

/-- A record of a network. -/
def homeRecord : Json :=
  .object
    [("ssid", .string "home"), ("allowedProtocols", .strings ["WPA", "RSN"]),
      ("ipConfiguration", .object []), ("security", .string "PSK")]

/-- The same record by a newer writer: with an unknown member, an unknown protocol, and an unknown
member of the addressing part. -/
def newerHomeRecord : Json :=
  .object
    [("ssid", .string "home"), ("band", .natural 6),
      ("allowedProtocols", .strings ["WPA", "WPA3", "RSN"]),
      ("ipConfiguration", .object [("mtu", .natural 1500)]), ("security", .string "PSK")]

/-- The profile of both records. -/
def homeProfile : Profile :=
  { ssid := "home", security := .psk, protocols := .ofList [.wpa, .rsn] }

/-- A record of an enterprise network. -/
def corpRecord : Json := .object [("ssid", .string "corp"), ("security", .string "EAP")]

/-- A document with a network, a value that is no record and an enterprise network. -/
def olderDocument : Json :=
  .object
    [("format", .string "wifi-backup"), ("version", .string "1.4"),
      ("networks", .array [homeRecord, .null, corpRecord])]

/-- The same document by a newer writer. -/
def newerDocument : Json :=
  .object
    [("format", .string "wifi-backup"), ("version", .string "1.12"),
      ("networks", .array [newerHomeRecord, .null, corpRecord]),
      ("device", .object [("model", .string "x")])]

theorem extended_newerHomeRecord : Record.Extended homeRecord newerHomeRecord := by
  have hband : ∀ m, Record.schema.key m ≠ "band" := by
    intro m
    cases m <;> decide
  have hmtu : ∀ m, AddressingRecord.schema.key m ≠ "mtu" := by
    intro m
    cases m <;> decide
  have haddressing : AddressingRecord.Extended (.object []) (.object [("mtu", .natural 1500)]) :=
    Json.Schema.alike_insert (fun _ _ => rfl) [] [] hmtu _
  have hprotocols : FlagsExtended Protocol (.strings ["WPA", "RSN"])
      (.strings ["WPA", "WPA3", "RSN"]) :=
    .array (.keep _ (.insert (by decide) (.keep _ .nil)))
  have hkey := Record.fields.key_injective
  have hrefl := Record.memberExtended_refl
  have htrans := Record.memberExtended_trans
  refine (Json.Schema.alike_insert hrefl [("ssid", .string "home")] _ hband (.natural 6)).trans
    htrans ?_
  refine (Json.Schema.alike_replace hrefl hkey [_, _] _ (m := .protocols) hprotocols).trans
    htrans ?_
  exact Json.Schema.alike_replace hrefl hkey [_, _, _] _ (m := .ipConfiguration) haddressing

theorem extended_newerDocument : Envelope.Extended olderDocument newerDocument := by
  have hdevice : ∀ m, Envelope.schema.key m ≠ "device" := by
    intro m
    cases m <;> decide
  have hold : Version.parse "1.4" = .ok ⟨1, 4⟩ := rfl
  have hnew : Version.parse "1.12" = .ok ⟨1, 12⟩ := rfl
  have hnetworks : Envelope.NetworksExtended (.array [homeRecord, .null, corpRecord])
      (.array [newerHomeRecord, .null, corpRecord]) :=
    .array (.cons extended_newerHomeRecord (.cons (.same _) (.cons (.same _) .nil)))
  have hkey := Envelope.fields.key_injective
  have hrefl := Envelope.memberExtended_refl
  have htrans := Envelope.memberExtended_trans
  refine (Json.Schema.alike_replace hrefl hkey [_] _ (m := .version) (.minor hold hnew)).trans
    htrans ?_
  refine (Json.Schema.alike_replace hrefl hkey [_, _] _ (m := .networks) hnetworks).trans
    htrans ?_
  exact Json.Schema.alike_insert hrefl [_, _, _] [] hdevice _

theorem accepted_newerDocument :
    (decode {} (olderDocument.print .compact)).report =
      .ok { version := ⟨1, 4⟩, profiles := [homeProfile], dropped := 1, excluded := 1 } ∧
    ∃ minor, (decode {} (newerDocument.print .indented)).report =
      .ok { version := ⟨1, minor⟩, profiles := [homeProfile], dropped := 1, excluded := 1 } := by
  have hfits : Fits 5 olderDocument ∧ Fits 5 newerDocument := by
    simp [olderDocument, newerDocument, homeRecord, newerHomeRecord, corpRecord, Json.strings,
      Json.fits_object_iff, Json.fits_array_iff, Json.fits_natural, Fits.null, Fits.string]
  have hreport : (decode {} (olderDocument.print .compact)).report =
      .ok { version := ⟨1, 4⟩, profiles := [homeProfile], dropped := 1, excluded := 1 } :=
    eq_ok_of_toOption (by decide +kernel)
  have hsize : (newerDocument.print .indented).length ≤ 1048576 := by decide +kernel
  refine ⟨hreport, accepted_of_extended hreport (Json.read_print _ (hfits.1.mono ?_))
    (Json.read_print _ (hfits.2.mono ?_)) extended_newerDocument hsize⟩
  · decide
  · decide

end WirelessArchive
