import SchemaCompiler.Disk.Files
import SchemaCompiler.Log.Notice
import SchemaCompiler.Schema.Parse

/-!
# Documents from files

A document is read from a file whose path tells the format of its text.
-/

namespace SchemaCompiler

/-- Why a file gives no document. -/
inductive LoadFault where
  /-- The file cannot be read. -/
  | unreadable (path : Path) (fault : FileFault)
  /-- The text of the file is no document. -/
  | undecodable (path : Path) (fault : DocumentFault)

/-- The wording of a fault, if it has one. -/
def LoadFault.message? : LoadFault → Option String
  | unreadable path fault =>
    some ("failed to read schema '" ++ path.text ++ "': " ++ fault.message)
  | undecodable path fault =>
    fault.message?.map fun message =>
      "failed to decode schema '" ++ path.text ++ "' " ++ message

/-- The wording of a fault. Where the text of the file breaks a rule of its format and that has no
wording of its own, it says no more than that. -/
def LoadFault.message (fault : LoadFault) : String :=
  fault.message?.getD
    (match fault with
    | unreadable path _ | undecodable path _ =>
      "failed to decode schema '" ++ path.text ++ "' → the text is malformed")

namespace Document

/-- The document in a file. -/
def load (disk : Disk) (path : Path) : Except LoadFault Document :=
  match disk.readText path with
  | .error fault => .error (.unreadable path fault)
  | .ok source =>
    match parse (.ofPath path.text) source with
    | .error fault => .error (.undecodable path fault)
    | .ok document => .ok document

/-- What there is to say about a document that was loaded. -/
def loadNotices (path : Path) (document : Document) : List Notice :=
  [.loaded path.text (.ofPath path.text) document.definitions.size]

end Document

end SchemaCompiler
