import WirelessArchive.Proofs.Settings.Loading
import WirelessArchive.Proofs.Settings.Saving

/-!
# Saved settings are loaded again

Where settings were saved, their text stands at the path, and this text gives the settings again
member for member (`read_fileText`).  Loading refuses the limit of zero, though, and saving does
not: settings with this limit are saved and cannot be loaded.
-/

namespace WirelessArchive

/-! ## The file -/

theorem FilePath.ending_of_entry? {p : FilePath} {above : List PathStep} {name : String}
    (h : p.entry? = some (above, name)) : p.ending = .bare ∨ p.ending = .slash := by
  unfold entry? at h
  split at h
  · next hending => exact Or.inl hending
  · next hending => exact Or.inr hending
  · cases h

/-- A file that was saved stands at its path. -/
theorem FileTree.nodeAt_of_save {t : FileTree} (ht : t.Sound) {p : FilePath}
    {content : List UInt8} (h : (t.save p content).error? = none) :
    (t.save p content).tree.nodeAt p = .ok (.file content) := by
  have hmade := createDirectories_made ht p.parent
  unfold FileTree.save Change.andThen at h ⊢
  split at h
  · next e he =>
    rw [he] at h
    cases h
  · split at h
    · next t' hwrite =>
      obtain ⟨⟨above, name, hreaches⟩, hslash, hnotdir, rfl⟩ :=
        (writeFile_eq_ok_iff hmade.sound).1 hwrite
      have hbare : p.ending = .bare :=
        (FilePath.ending_of_entry? hreaches.speaks).resolve_right hslash
      have hput : Framed (· = p.place) (t.createDirectories p.parent).tree
          ((t.createDirectories p.parent).tree.put p.place (.file content)) := .put rfl hnotdir
      exact (hreaches.mono hput.directories).nodeAt_of_file hbare node?_put_self
    · cases h

namespace Settings

theorem ofContent_fileText (s : Settings) : ofContent s.fileText = s.checkLimit := by
  have htext : Text.Utf8.decode? s.fileText = some s.listing := by
    rw [fileText_eq, Text.Utf8.decode?_encode]
  exact ofContent_of_read_eq_ok htext s.read_fileText

/-- Settings that were saved are loaded again, unless their limit is zero. -/
theorem settings_reloaded {t : FileTree} (ht : t.Sound) {p : FilePath} {s : Settings}
    (h : (s.save t p).2 = .ok ()) :
    loadOrDefault (s.save t p).1 p =
      if s.maxBlobBytes = 0 then .error (.settings "max_blob_bytes must be greater than zero")
      else .ok s := by
  have hsaved : (t.save p s.fileText).error? = none := by
    unfold save at h
    dsimp only at h
    split at h
    · assumption
    · cases h
  have htree : (s.save t p).1 = (t.save p s.fileText).tree := by
    rw [save, hsaved]
  rw [htree, loadOrDefault_of_file (FileTree.nodeAt_of_save ht hsaved), ofContent_fileText]
  rfl

/-- Settings in a directory that is made for them are loaded again. -/
theorem settings_reloaded_nested :
    let s : Settings := { prettyPrint := true, maxBlobBytes := 4096 }
    let path := FilePath.ofText "nested/codec.json"
    (s.save FileTree.empty path).2 = .ok () ∧
      loadOrDefault (s.save FileTree.empty path).1 path = .ok s := by
  intro s path
  have hsaved : (s.save FileTree.empty path).2 = .ok () := by decide +kernel
  exact ⟨hsaved, settings_reloaded FileTree.sound_empty hsaved⟩

/-- Settings with the limit of zero are saved and then refused. -/
theorem zeroLimit_refused :
    let s : Settings := { maxBlobBytes := 0 }
    let path := FilePath.ofText "codec.json"
    (s.save FileTree.empty path).2 = .ok () ∧
      loadOrDefault (s.save FileTree.empty path).1 path =
        .error (.settings "max_blob_bytes must be greater than zero") := by
  decide +kernel

end Settings

end WirelessArchive
