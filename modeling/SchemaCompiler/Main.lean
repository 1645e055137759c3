import SchemaCompiler.CommandLine.Run
import SchemaCompiler.Disk.Changes

/-!
# The program

The program sees its surroundings as a `Disk`: the places that the arguments name, with everything
below them where a pattern or an output directory makes it matter. The run is carried out on that
disk, and what it has changed is then written where it belongs.
-/

namespace SchemaCompiler.Surroundings

open CommandLine

/-- The environment variable that asks for a filter of the log. -/
def filterVariable : String := "RUST_LOG"

/-- How many directories may lie within each other below a place. -/
def maxDepth : Nat := 64

/-- A place of the disk as a path. -/
def pathText (location : Location) : String :=
  "/" ++ "/".intercalate location

/-- The place that pieces of a path lead to by their spelling. -/
def follow (start : Location) (pieces : List String) : Location :=
  pieces.foldl (fun location piece =>
    if piece = "" || piece = "." then location
    else if piece = ".." then location.dropLast
    else location ++ [piece]) start

/-- The place from which a path starts. -/
def startOf (working : Location) (path : Path) : Location :=
  if path.isAbsolute then [] else working

/-- The place that a path names by its spelling. -/
def locationOf (working : Location) (path : Path) : Location :=
  follow (startOf working path) path.pieces

/-- The place that an input is about, with whether what is below it matters. That of a pattern is in
front of its first wildcard. -/
def inputPlace (working : Location) (input : String) : Location × Bool :=
  let path : Path := ⟨input⟩
  if Glob.hasWildcard input then
    (follow (startOf working path) (path.pieces.takeWhile (!Glob.hasWildcard ·)), true)
  else (locationOf working path, false)

/-- The places that a command is about. -/
def places (working : Location) : Command → List (Location × Bool)
  | .models inputs settings _ out _ =>
    let target := out.toList.map fun out => (locationOf working (settings.directory out), true)
    inputs.map (inputPlace working) ++ target
  | .types inputs => inputs.map (inputPlace working)

/-- Looks at a place and, as far as the number allows it, at the directories within each other below
it. -/
def look (location : Location) : Nat → Disk → IO Disk
  | below, disk => do
    let text := pathText location
    match ← (IO.FS.readBinFile text).toBaseIO with
    | .ok content => return disk.put location (.file content)
    | .error _ =>
      match ← (IO.FS.realPath text).toBaseIO with
      | .error _ => return disk
      | .ok path =>
        match ← path.readDir.toBaseIO with
        | .error _ => return disk
        | .ok children =>
          let disk := if location.isEmpty then disk else disk.put location .directory
          match below with
          | 0 => return disk
          | below + 1 =>
            children.foldlM (fun disk child => look (location ++ [child.fileName]) below disk) disk

/-- Looks at every place on the way to a place, and at what is below it if that matters. -/
def lookAlong (disk : Disk) (place : Location × Bool) : IO Disk := do
  let ways := (List.range place.1.length).map (place.1.take ·)
  let disk ← ways.foldlM (fun disk location => look location 0 disk) disk
  look place.1 (if place.2 then maxDepth else 0) disk

/-- The disk as far as a request is about it. -/
def diskFor (working : Location) (request : Request) : IO Disk := do
  let start : Disk := { working }
  let named :=
    match request with
    | .run _ command => places working command
    | .help | .version | .misuse _ => []
  ((working, false) :: named).foldlM lookAlong start

/-- Makes changes on the real disk. -/
def apply (changes : List (Location × Entry)) : IO Unit :=
  changes.forM fun change =>
    match change.2 with
    | .directory => IO.FS.createDir (pathText change.1)
    | .file content => IO.FS.writeBinFile (pathText change.1) content

/-- The place of the working directory. -/
def workingLocation : IO Location := do
  return locationOf [] ⟨(← IO.currentDir).toString⟩

end SchemaCompiler.Surroundings

open SchemaCompiler in
/-- Carries out the request that the arguments make. -/
def main (arguments : List String) : IO UInt32 := do
  let working ← Surroundings.workingLocation
  let disk ← Surroundings.diskFor working (.ofArguments arguments)
  let report := CommandLine.run disk (← IO.getEnv Surroundings.filterVariable) arguments
  Surroundings.apply (report.disk.changesSince disk)
  (← IO.getStdout).putStr report.output
  (← IO.getStderr).putStr report.messages
  return report.code.toUInt32
