/-!
# File paths

A path is a list of steps from the working directory.  A step up is kept as a step: where it leads
is known only in a tree, because the place it starts from has to be a directory there.
-/

namespace WirelessArchive

/-- A step of a path: to an entry of the directory, or to the directory above. -/
inductive PathStep where
  | into (name : String)
  | up
  deriving DecidableEq, Repr

/-- What a path text has after its last step. -/
inductive PathEnding where
  | bare
  /-- A slash: what stands at the path is meant to be a directory. -/
  | slash
  /-- A single point: the directory that the steps lead to. -/
  | point
  deriving DecidableEq, Repr

/-- A path from the working directory. -/
structure FilePath where
  steps : List PathStep
  ending : PathEnding := .bare
  deriving DecidableEq, Repr

/-- The step that a piece of a path text stands for.  Nothing and a single point stay in place. -/
def PathStep.ofPiece? (piece : List Char) : Option PathStep :=
  if piece = [] ∨ piece = ['.'] then none
  else if piece = ['.', '.'] then some .up
  else some (.into (String.ofList piece))

/-- The length of the text of a step in bytes. -/
def PathStep.size : PathStep → Nat
  | into name => name.utf8ByteSize
  | up => 2

namespace FilePath

/-- What the pieces of a path text end with. -/
def endingOf (pieces : List (List Char)) : PathEnding :=
  if pieces.reverse.find? (· ≠ []) = some ['.'] then .point
  else if pieces.getLast? = some [] then .slash
  else .bare

/-- The path of a text. -/
def ofText (text : String) : FilePath :=
  let pieces := text.toList.splitOn '/'
  ⟨pieces.filterMap PathStep.ofPiece?, endingOf pieces⟩

/-- The path without its last step. -/
def parent (p : FilePath) : FilePath := { steps := p.steps.dropLast }

/-- The steps to a directory and the name of the entry there that a path speaks of.  A path that
ends in a step up or in a point speaks of no entry, only of a directory. -/
def entry? (p : FilePath) : Option (List PathStep × String) :=
  match p.steps.getLast?, p.ending with
  | some (.into name), .bare | some (.into name), .slash => some (p.steps.dropLast, name)
  | _, _ => none

/-- Whether a name on the path contains the NUL character. -/
def hasNul (p : FilePath) : Bool :=
  p.steps.any fun
    | .into name => name.toList.contains '\x00'
    | .up => false

/-- The length of the path in bytes, with one slash between steps. -/
def size (p : FilePath) : Nat :=
  p.steps.foldl (fun bytes step => bytes + step.size) 0 + (p.steps.length - 1)

example : ofText "a/../b.json" = ⟨[.into "a", .up, .into "b.json"], .bare⟩ := by decide +kernel

example : ofText "./a//b/" = ⟨[.into "a", .into "b"], .slash⟩ := by decide +kernel

example : ofText "a/./" = ⟨[.into "a"], .point⟩ := by decide +kernel

end FilePath

end WirelessArchive
