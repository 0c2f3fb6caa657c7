import WirelessArchive.Settings.FilePath
import WirelessArchive.Text.Utf8

/-!
# File trees

A tree of directories and files around a working directory, as the value that file operations read
and change.  A path is followed step by step, and each place that it leaves has to be a directory,
also where a later step leads back up.  An operation of several steps that fails on the way keeps
what it did before.
-/

namespace WirelessArchive

/-- A place in a tree, told from the working directory: so many directories above it, and from
there down by names.  The names of the directories above are not known, so no path leads back down
from them into the working directory. -/
structure Place where
  above : Nat := 0
  names : List String := []
  deriving DecidableEq, Repr

namespace Place

/-- The place of the directory above. -/
def parent (p : Place) : Place :=
  if p.names = [] then { p with above := p.above + 1 } else { p with names := p.names.dropLast }

/-- The place of an entry of a directory. -/
def child (p : Place) (name : String) : Place := { p with names := p.names ++ [name] }

end Place

/-- What stands at a place. -/
inductive FileNode where
  | directory
  | file (content : List UInt8)
  deriving DecidableEq, Repr

/-- Why a file operation fails. -/
inductive FileError where
  | notFound
  | fileExists
  | notADirectory
  | isADirectory
  | nameTooLong
  | nulInName
  | notUtf8
  deriving DecidableEq, Repr

/-- The wording of each error. -/
def FileError.message : FileError → String
  | notFound => "No such file or directory (os error 2)"
  | fileExists => "File exists (os error 17)"
  | notADirectory => "Not a directory (os error 20)"
  | isADirectory => "Is a directory (os error 21)"
  | nameTooLong => "File name too long (os error 36)"
  | nulInName => "file name contained an unexpected NUL byte"
  | notUtf8 => "stream did not contain valid UTF-8"

/-- The longest name of an entry, in bytes. -/
def maxNameSize : Nat := 255

/-- The longest path, in bytes. -/
def maxPathSize : Nat := 4095

/-- Refuses a path that no operation takes, whatever the tree. -/
def FilePath.check (p : FilePath) : Except FileError Unit :=
  if p.hasNul then .error .nulInName
  else if maxPathSize < p.size then .error .nameTooLong
  else .ok ()

/-- A tree of directories and files. -/
structure FileTree where
  /-- What stands at a place, if anything does. -/
  node? : Place → Option FileNode

namespace FileTree

/-- The tree with nothing but the working directory and those above it. -/
def empty : FileTree := ⟨fun p => if p.names = [] then some .directory else none⟩

/-- Puts a node at a place. -/
def put (t : FileTree) (place : Place) (node : FileNode) : FileTree :=
  ⟨fun p => if p = place then some node else t.node? p⟩

/-! ## Following paths -/

/-- The entry of a name in a directory, if there is one. -/
def entry? (t : FileTree) (dir : Place) (name : String) : Except FileError (Option FileNode) :=
  if maxNameSize < name.utf8ByteSize then .error .nameTooLong else .ok (t.node? (dir.child name))

/-- Follows steps from a directory to what stands at their end. -/
def follow (t : FileTree) (here : Place) : List PathStep → Except FileError (Place × FileNode)
  | [] => .ok (here, .directory)
  | .up :: rest => t.follow here.parent rest
  | .into name :: rest =>
    match t.entry? here name with
    | .error error => .error error
    | .ok none => .error .notFound
    | .ok (some .directory) => t.follow (here.child name) rest
    | .ok (some (.file content)) =>
      if rest = [] then .ok (here.child name, .file content) else .error .notADirectory

/-- The place of the directory that steps lead to. -/
def directoryAt (t : FileTree) (steps : List PathStep) : Except FileError Place :=
  match t.follow {} steps with
  | .error error => .error error
  | .ok (place, .directory) => .ok place
  | .ok (_, .file _) => .error .notADirectory

/-- What stands at a path. -/
def nodeAt (t : FileTree) (p : FilePath) : Except FileError FileNode := do
  p.check
  match ← t.follow {} p.steps with
  | (_, .directory) => .ok .directory
  | (_, .file content) => if p.ending = .bare then .ok (.file content) else .error .notADirectory

/-- Whether a directory stands at a path. -/
def isDirectory (t : FileTree) (p : FilePath) : Bool :=
  match t.nodeAt p with
  | .ok .directory => true
  | _ => false

/-! ## Changing a tree -/

/-- Makes a directory in one that exists. -/
def makeDirectory (t : FileTree) (p : FilePath) : Except FileError FileTree := do
  p.check
  match p.entry? with
  | none =>
    let _ ← t.directoryAt p.steps
    .error .fileExists
  | some (above, name) =>
    let dir ← t.directoryAt above
    match ← t.entry? dir name with
    | some _ => .error .fileExists
    | none => .ok (t.put (dir.child name) .directory)

/-- Makes a directory in one that exists, unless it is there already. -/
def ensureDirectory (t : FileTree) (p : FilePath) : Except FileError FileTree :=
  match t.makeDirectory p with
  | .ok t' => .ok t'
  | .error error => if t.isDirectory p then .ok t else .error error

/-- Puts a file into a directory that exists. -/
def writeFile (t : FileTree) (p : FilePath) (content : List UInt8) : Except FileError FileTree := do
  p.check
  match p.entry? with
  | none =>
    let _ ← t.directoryAt p.steps
    .error .isADirectory
  | some (above, name) =>
    let dir ← t.directoryAt above
    if p.ending = .slash then .error .isADirectory
    else
      match ← t.entry? dir name with
      | some .directory => .error .isADirectory
      | _ => .ok (t.put (dir.child name) (.file content))

/-- What an operation of several steps leaves: the tree, and the error that stopped it. -/
structure Change where
  tree : FileTree
  error? : Option FileError := none

/-- Goes on with a further step, unless an error has stopped the operation. -/
def Change.andThen (c : Change) (step : FileTree → Except FileError FileTree) : Change :=
  match c.error? with
  | some _ => c
  | none =>
    match step c.tree with
    | .ok t => { tree := t }
    | .error error => { c with error? := some error }

/-- Makes the directory that steps, the last one first, lead to.  If the one it belongs into is
missing, that is made before. -/
def createDirectory (t : FileTree) (ending : PathEnding) : List PathStep → Change
  | [] => { tree := t }
  | last :: before =>
    let p : FilePath := ⟨(last :: before).reverse, ending⟩
    match t.ensureDirectory p with
    | .ok t' => { tree := t' }
    | .error .notFound => (t.createDirectory .bare before).andThen (·.ensureDirectory p)
    | .error error => { tree := t, error? := some error }

/-- Makes a directory with all directories on the way to it. -/
def createDirectories (t : FileTree) (p : FilePath) : Change :=
  t.createDirectory p.ending p.steps.reverse

/-- Puts a file at a path, with the directories on the way to it. -/
def save (t : FileTree) (p : FilePath) (content : List UInt8) : Change :=
  (t.createDirectories p.parent).andThen (·.writeFile p content)

/-! ## Reading texts -/

/-- The text of a file. -/
def textOf (content : List UInt8) : Except FileError String :=
  match Text.Utf8.decode? content with
  | some text => .ok text
  | none => .error .notUtf8

/-- The text at a path, if a file with a text stands there. -/
def text? (t : FileTree) (p : FilePath) : Option String :=
  match t.nodeAt p with
  | .ok (.file content) => (textOf content).toOption
  | _ => none

/-- Leaving a directory that is missing makes it, although the file stands beside it. -/
example :
    let c := empty.save (FilePath.ofText "a/../b") [0x78]
    c.error? = none ∧ c.tree.isDirectory (FilePath.ofText "a") ∧
      c.tree.text? (FilePath.ofText "b") = some "x" := by
  decide +kernel

/-- Nothing stands behind a file, not even the directory that holds it. -/
example :
    let c := empty.save (FilePath.ofText "f") []
    c.tree.isDirectory (FilePath.ofText "f/..") = false := by
  decide +kernel

/-- A file in the way is reported, and the directories made before it stay. -/
example :
    let c := (empty.save (FilePath.ofText "f") []).tree.save (FilePath.ofText "a/../f/x") []
    c.error? = some .fileExists ∧ c.tree.isDirectory (FilePath.ofText "a") := by
  decide +kernel

end FileTree

end WirelessArchive
