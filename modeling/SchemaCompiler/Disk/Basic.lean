import SchemaCompiler.Disk.Path

/-!
# Disks

A `Disk` is a tree of directories and files together with the working directory from which relative
paths start. Places are lists of names from the root; the root itself is always there.

A path is walked piece by piece, and every piece but the last must lead from an existing directory
to another one. Empty pieces and points stay where they are, two points go up, and at the root
they stay there.

## What is left out

A disk has directories and files only. There are no symbolic links, devices or mounted places, so
that a place is the list of names that leads there. Nobody lacks a permission, no room runs out, and
nobody else changes the disk meanwhile. So the faults of a disk are those of `FileFault`, and other
errors of an operating system do not arise.
-/

namespace SchemaCompiler

/-- Why a file or directory cannot be used. -/
inductive FileFault where
  /-- There is no such file or directory. -/
  | notFound
  /-- A directory is wanted and there is something already. -/
  | alreadyThere
  /-- What should be a directory is a file. -/
  | notDirectory
  /-- What should be a file is a directory. -/
  | isDirectory
  /-- A name or path is too long. -/
  | nameTooLong
  /-- A path holds a null character. -/
  | nullInPath
  /-- The bytes of a file are no text. -/
  | notText
  deriving DecidableEq, Repr

/-- The wording of a fault. -/
def FileFault.message : FileFault → String
  | notFound => "No such file or directory (os error 2)"
  | alreadyThere => "File exists (os error 17)"
  | notDirectory => "Not a directory (os error 20)"
  | isDirectory => "Is a directory (os error 21)"
  | nameTooLong => "File name too long (os error 36)"
  | nullInPath => "file name contained an unexpected NUL byte"
  | notText => "stream did not contain valid UTF-8"

/-- What is at a place of a disk. -/
inductive Entry where
  /-- A directory. -/
  | directory
  /-- A file with its bytes. -/
  | file (content : ByteArray)
  deriving Inhabited

/-- A place of a disk: the names on the way from the root. -/
abbrev Location := List String

/-- A tree of directories and files. -/
structure Disk where
  /-- What is where, apart from the root. -/
  entries : List (Location × Entry) := []
  /-- The directory from which relative paths start. -/
  working : Location := []
  deriving Inhabited

namespace Disk

/-- What is at a place. -/
def entry? (disk : Disk) (location : Location) : Option Entry :=
  if location = [] then some .directory else disk.entries.lookup location

/-- Puts something at a place. -/
def putEntry (location : Location) (entry : Entry) :
    List (Location × Entry) → List (Location × Entry)
  | [] => [(location, entry)]
  | other :: others =>
    if other.1 = location then (location, entry) :: others
    else other :: putEntry location entry others

/-- The disk with something at a place. -/
def put (disk : Disk) (location : Location) (entry : Entry) : Disk :=
  { disk with entries := putEntry location entry disk.entries }

/-- The most bytes of a name. -/
def maxName : Nat := 255

/-- The most bytes of a path. -/
def maxPath : Nat := 4095

/-- The place that a piece of a path leads to from a place, which must be a directory. -/
def step (disk : Disk) (location : Location) (piece : String) : Except FileFault Location :=
  match disk.entry? location with
  | none => .error .notFound
  | some (.file _) => .error .notDirectory
  | some .directory =>
    if piece = "" || piece = "." then .ok location
    else if piece = ".." then .ok location.dropLast
    else if maxName < piece.utf8ByteSize then .error .nameTooLong
    else .ok (location ++ [piece])

/-- The place that pieces of a path lead to from a place. -/
def walk (disk : Disk) (location : Location) : List String → Except FileFault Location
  | [] => .ok location
  | piece :: pieces =>
    match disk.step location piece with
    | .ok location => disk.walk location pieces
    | .error fault => .error fault

/-- The place from which a path starts. -/
def start (disk : Disk) (path : Path) : Location :=
  if path.isAbsolute then [] else disk.working

/-- Checks a path before it is walked. -/
def checkPath (path : Path) : Except FileFault Unit :=
  if path.text.toList.contains '\x00' then .error .nullInPath
  else if path.text.isEmpty then .error .notFound
  else if maxPath < path.text.utf8ByteSize then .error .nameTooLong
  else .ok ()

/-- The place that a path names. There need not be anything at the place. -/
def locate (disk : Disk) (path : Path) : Except FileFault Location :=
  match checkPath path with
  | .error fault => .error fault
  | .ok () => disk.walk (disk.start path) path.pieces

/-- Whether a path names a directory. -/
def isDirectory (disk : Disk) (path : Path) : Bool :=
  match disk.locate path with
  | .error _ => false
  | .ok location =>
    match disk.entry? location with
    | some .directory => true
    | _ => false

end Disk

end SchemaCompiler
