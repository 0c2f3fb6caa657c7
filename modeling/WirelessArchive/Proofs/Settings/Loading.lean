import WirelessArchive.Settings.Store
import WirelessArchive.Proofs.Json.Shape
import WirelessArchive.Proofs.Settings.Reading

/-!
# What loading settings gives

A file with an object gives the settings of the object, except that the limit of zero is refused.
Everything else that stands at a path is refused too, as what it is: a text that gives no settings
as wrong settings, and what is no text as a file that cannot be read.  Where nothing stands, the
defaults hold.
-/

namespace WirelessArchive.Settings

/-- Settings with the limit of zero are refused, others are taken. -/
def checkLimit (s : Settings) : Except ArchiveError Settings :=
  if s.maxBlobBytes = 0 then .error (.settings "max_blob_bytes must be greater than zero")
  else .ok s

theorem checkLimit_eq_ok_iff {s r : Settings} :
    s.checkLimit = .ok r ↔ s = r ∧ s.maxBlobBytes ≠ 0 := by
  unfold checkLimit
  split
  · next hzero => simp [hzero]
  · next hpositive => simp [hpositive]

section

variable {tree : FileTree} {path : FilePath} {content : List UInt8} {text : String}

theorem loadOrDefault_of_error {error : FileError} (h : tree.nodeAt path = .error error) :
    loadOrDefault tree path = .ok {} := by
  rw [loadOrDefault, h]

theorem loadOrDefault_of_directory (h : tree.nodeAt path = .ok .directory) :
    loadOrDefault tree path = .error (.file FileError.isADirectory.message) := by
  rw [loadOrDefault, h]

theorem loadOrDefault_of_file (h : tree.nodeAt path = .ok (.file content)) :
    loadOrDefault tree path = ofContent content := by
  rw [loadOrDefault, h]

theorem ofContent_of_decode?_eq_none (h : Text.Utf8.decode? content = none) :
    ofContent content = .error (.file FileError.notUtf8.message) := by
  rw [ofContent, FileTree.textOf, h]

theorem ofContent_of_read_eq_error (htext : Text.Utf8.decode? content = some text)
    {stop : Json.Stop Json.TypedFault} (h : read content = .error stop) :
    ∃ message, ofContent content = .error (.settings message) := by
  rw [ofContent, FileTree.textOf, htext, h]
  exact ⟨_, rfl⟩

theorem ofContent_of_read_eq_ok (htext : Text.Utf8.decode? content = some text) {s : Settings}
    (h : read content = .ok s) : ofContent content = s.checkLimit := by
  rw [ofContent, FileTree.textOf, htext, h]
  rfl

/-- A text that is not JSON gives no settings. -/
theorem ofContent_of_not_isText (htext : Text.Utf8.decode? content = some text)
    (h : ¬Json.Language.IsText content) :
    ∃ message, ofContent content = .error (.settings message) := by
  cases hread : read content with
  | error stop => exact ofContent_of_read_eq_error htext hread
  | ok s => exact absurd (isText_of_read hread) h

theorem ofContent_eq_ok_iff (htext : Text.Utf8.decode? content = some text)
    {members : List (String × Json)} (h : Json.read content = .ok (.object members))
    {s : Settings} :
    ofContent content = .ok s ↔ IsSettings members s ∧ s.maxBlobBytes ≠ 0 := by
  rw [← read_object_iff h]
  cases hread : read content with
  | error stop =>
    obtain ⟨message, hmessage⟩ := ofContent_of_read_eq_error htext hread
    simp [hmessage]
  | ok r =>
    rw [ofContent_of_read_eq_ok htext hread, checkLimit_eq_ok_iff, Except.ok.injEq]
    constructor
    · rintro ⟨rfl, hlimit⟩
      exact ⟨rfl, hlimit⟩
    · rintro ⟨rfl, hlimit⟩
      exact ⟨rfl, hlimit⟩

/-- A text never fails as a file. -/
theorem exists_settings_of_ofContent_ne_ok (htext : Text.Utf8.decode? content = some text)
    (h : ∀ s, ofContent content ≠ .ok s) :
    ∃ message, ofContent content = .error (.settings message) := by
  cases hread : read content with
  | error stop => exact ofContent_of_read_eq_error htext hread
  | ok s =>
    have hcheck := ofContent_of_read_eq_ok htext hread
    rw [hcheck] at h ⊢
    unfold checkLimit at h ⊢
    split at h
    · next hzero => exact ⟨_, if_pos hzero⟩
    · exact absurd rfl (h s)

theorem maxBlobBytes_ne_zero_of_loadOrDefault {s : Settings}
    (h : loadOrDefault tree path = .ok s) : s.maxBlobBytes ≠ 0 := by
  unfold loadOrDefault at h
  split at h
  · cases h
    decide
  · cases h
  · next content _ =>
    cases htext : Text.Utf8.decode? content with
    | none =>
      rw [ofContent_of_decode?_eq_none htext] at h
      cases h
    | some text =>
      cases hread : read content with
      | error stop =>
        obtain ⟨message, hmessage⟩ := ofContent_of_read_eq_error htext hread
        cases h.symm.trans hmessage
      | ok r =>
        rw [ofContent_of_read_eq_ok htext hread, checkLimit_eq_ok_iff] at h
        obtain ⟨rfl, hlimit⟩ := h
        exact hlimit

end

/-- Loading settings gives the defaults where nothing stands at the path, fails as a file where no
text stands there, and fails as settings where the text is not JSON.  A file with an object gives
exactly the settings of the object, which neither the order of its members nor unknown members
change, as long as their limit is not zero; all other objects fail as settings.  Settings with the
limit of zero are never loaded. -/
theorem settings_loaded (tree : FileTree) (path : FilePath) :
    (∀ error, tree.nodeAt path = .error error →
      loadOrDefault tree path = .ok ⟨1, false, 1048576⟩) ∧
    (tree.nodeAt path = .ok .directory →
      ∃ message, loadOrDefault tree path = .error (.file message)) ∧
    (∀ content, tree.nodeAt path = .ok (.file content) → Text.Utf8.decode? content = none →
      ∃ message, loadOrDefault tree path = .error (.file message)) ∧
    (∀ content text, tree.nodeAt path = .ok (.file content) →
      Text.Utf8.decode? content = some text →
      (¬Json.Language.IsText content →
        ∃ message, loadOrDefault tree path = .error (.settings message)) ∧
      ∀ members, Json.read content = .ok (.object members) →
        (∀ s, loadOrDefault tree path = .ok s ↔ IsSettings members s ∧ s.maxBlobBytes ≠ 0) ∧
        ((∀ s, ¬(IsSettings members s ∧ s.maxBlobBytes ≠ 0)) →
          ∃ message, loadOrDefault tree path = .error (.settings message)) ∧
        ∀ members', (known members).Perm (known members') →
          ∀ s, IsSettings members s ↔ IsSettings members' s) ∧
    ∀ s, loadOrDefault tree path = .ok s → s.maxBlobBytes ≠ 0 := by
  refine ⟨fun error h => loadOrDefault_of_error h, fun h => ⟨_, loadOrDefault_of_directory h⟩,
    fun content h hnone => ?_, fun content text h htext => ⟨fun hjson => ?_, ?_⟩,
    fun s => maxBlobBytes_ne_zero_of_loadOrDefault⟩
  · rw [loadOrDefault_of_file h]
    exact ⟨_, ofContent_of_decode?_eq_none hnone⟩
  · rw [loadOrDefault_of_file h]
    exact ofContent_of_not_isText htext hjson
  · intro members hread
    rw [loadOrDefault_of_file h]
    refine ⟨fun s => ofContent_eq_ok_iff htext hread, fun hno => ?_, fun members' hperm s => ?_⟩
    · refine exists_settings_of_ofContent_ne_ok htext fun s hs => ?_
      exact hno s ((ofContent_eq_ok_iff htext hread).1 hs)
    · exact ⟨fun hs => hs.of_perm hperm, fun hs => hs.of_perm hperm.symm⟩

/-- The members of a settings file that leaves one out and has another one besides. -/
def looseMembers : List (String × Json) :=
  [("max_blob_bytes", .word64 4096), ("comment", .array [.null]), ("pretty_print", .bool true)]

/-- A tree with this file. -/
def looseTree : FileTree :=
  FileTree.empty.put ⟨0, ["codec.json"]⟩
    (.file (Json.print .indented (.object looseMembers)))

/-- The settings of this file are loaded, and the member that is left out has its default. -/
theorem settings_loaded_looseTree :
    loadOrDefault looseTree (FilePath.ofText "codec.json") =
      .ok { schemaVersion := 1, prettyPrint := true, maxBlobBytes := 4096 } := by
  have hfile : looseTree.nodeAt (FilePath.ofText "codec.json") =
      .ok (.file (Json.print .indented (.object looseMembers))) := by decide +kernel
  have hfits : Json.Fits 2 (.object looseMembers) := by
    simp [looseMembers, Json.word64, Json.fits_object_iff, Json.fits_array_iff, Json.fits_natural,
      Json.Fits.null, Json.Fits.bool]
  have hread := Json.read_print .indented (hfits.mono (by decide : 2 ≤ Json.maxDepth))
  obtain ⟨text, htext⟩ : ∃ text,
      Text.Utf8.decode? (Json.print .indented (.object looseMembers)) = some text :=
    Option.isSome_iff_exists.1 (by decide +kernel)
  have hsettings : IsSettings looseMembers ⟨1, true, 4096⟩ := by
    constructor
    · intro m
      cases m <;> decide
    · intro m
      cases m with
      | schemaVersion => exact .absent
      | prettyPrint => exact .given rfl
      | maxBlobBytes => exact .given ⟨_, rfl⟩
  obtain ⟨-, -, -, htexts, -⟩ := settings_loaded looseTree (FilePath.ofText "codec.json")
  exact (((htexts _ text hfile htext).2 looseMembers hread).1 _).2 ⟨hsettings, by decide⟩

end WirelessArchive.Settings
