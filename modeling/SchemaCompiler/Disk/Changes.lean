import SchemaCompiler.Disk.Basic

/-!
# Changes of a disk

What is new on a disk or differs from what was there before. Nothing is ever removed from a disk, so
these entries are all that tells the two apart.
-/

namespace SchemaCompiler

/-- Whether two things at a place are the same. -/
def Entry.same : Entry → Entry → Bool
  | directory, directory => true
  | file a, file b => a == b
  | _, _ => false

namespace Disk

/-- The entries of a disk that are new or that differ from those of an earlier one, each directory
before what is in it. -/
def changesSince (disk before : Disk) : List (Location × Entry) :=
  disk.entries.filter fun row => !(before.entry? row.1).any row.2.same

end Disk

end SchemaCompiler
