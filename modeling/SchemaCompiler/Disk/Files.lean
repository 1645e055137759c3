import SchemaCompiler.Disk.Basic

/-!
# Files and directories

Reading and writing whole files, and making directories. Writing replaces what a file held and makes
the file if there is none, but not the directory that holds it. `makeDirectories` makes a directory
and those that lead to it; directories that are there already are left alone.
-/

namespace SchemaCompiler.Disk

/-- The bytes of a file. -/
def readBytes (disk : Disk) (path : Path) : Except FileFault ByteArray :=
  match disk.locate path with
  | .error fault => .error fault
  | .ok location =>
    match disk.entry? location with
    | none => .error .notFound
    | some .directory => .error .isDirectory
    | some (.file content) => .ok content

/-- The text of a file. -/
def readText (disk : Disk) (path : Path) : Except FileFault String :=
  match disk.readBytes path with
  | .error fault => .error fault
  | .ok content =>
    match String.fromUTF8? content with
    | some text => .ok text
    | none => .error .notText

/-- The disk after bytes have been written to a file. -/
def writeBytes (disk : Disk) (path : Path) (content : ByteArray) : Except FileFault Disk :=
  match disk.locate path with
  | .error fault => .error fault
  | .ok location =>
    match disk.entry? location with
    | some .directory => .error .isDirectory
    | some (.file _) | none => .ok (disk.put location (.file content))

/-- The disk after a text has been written to a file. -/
def writeText (disk : Disk) (path : Path) (text : String) : Except FileFault Disk :=
  disk.writeBytes path text.toUTF8

/-- A path without the slashes at its end, unless it has nothing else. -/
def withoutEndSlashes (path : Path) : Path :=
  let cs := (path.text.toList.reverse.dropWhile (· == '/')).reverse
  if cs.isEmpty then path else ⟨.ofList cs⟩

/-- The disk after one directory has been made, which must not be there yet. Slashes at the end of
the path lead nowhere, but they count for its length. -/
def makeDirectory (disk : Disk) (path : Path) : Except FileFault Disk :=
  match checkPath path with
  | .error fault => .error fault
  | .ok () =>
    match disk.locate (withoutEndSlashes path) with
    | .error fault => .error fault
    | .ok location =>
      match disk.entry? location with
      | some _ => .error .alreadyThere
      | none => .ok (disk.put location .directory)

/-- The disk after a directory has been made, unless it is there already. -/
def ensureDirectory (disk : Disk) (path : Path) : Disk × Option FileFault :=
  match disk.makeDirectory path with
  | .ok disk => (disk, none)
  | .error fault => (disk, if disk.isDirectory path then none else some fault)

/-- Makes a directory of so many components and those that lead to it. -/
def makeDirectoriesFrom (disk : Disk) (path : Path) : Nat → Disk × Option FileFault
  | 0 => (disk, none)
  | components + 1 =>
    match disk.makeDirectory path with
    | .error .notFound =>
      match makeDirectoriesFrom disk path.parent components with
      | (disk, none) => disk.ensureDirectory path
      | failed => failed
    | _ => disk.ensureDirectory path

/-- The disk after a directory and those that lead to it have been made, and what prevented it. What
was made before a fault stays. -/
def makeDirectories (disk : Disk) (path : Path) : Disk × Option FileFault :=
  disk.makeDirectoriesFrom path path.components.length

end SchemaCompiler.Disk
