import WirelessArchive.Archive.Error
import WirelessArchive.Settings.FileTree
import WirelessArchive.Settings.Reader

/-!
# Settings files

Loading settings from a file tree and saving them there.  Where no file is, the defaults hold.
-/

namespace WirelessArchive.Settings

open Json

/-- The settings that the content of a file gives. -/
def ofContent (content : List UInt8) : Except ArchiveError Settings :=
  match FileTree.textOf content with
  | .error error => .error (.file error.message)
  | .ok _ =>
    match read content with
    | .error stop =>
      .error (.settings ("Failed to parse settings file: " ++ TypedFault.describe content stop))
    | .ok settings =>
      if settings.maxBlobBytes = 0 then
        .error (.settings "max_blob_bytes must be greater than zero")
      else .ok settings

/-- The settings at a path, or the defaults if the path leads to nothing. -/
def loadOrDefault (tree : FileTree) (path : FilePath) : Except ArchiveError Settings :=
  match tree.nodeAt path with
  | .error _ => .ok {}
  | .ok .directory => .error (.file FileError.isADirectory.message)
  | .ok (.file content) => ofContent content

/-- Saves the settings at a path: the tree that is left, and whether they were saved. -/
def save (settings : Settings) (tree : FileTree) (path : FilePath) :
    FileTree × Except ArchiveError Unit :=
  let change := tree.save path settings.fileText
  match change.error? with
  | none => (change.tree, .ok ())
  | some error => (change.tree, .error (.file error.message))

end WirelessArchive.Settings
