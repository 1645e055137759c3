import SchemaCompiler.Json.Reader
import SchemaCompiler.Schema.Decode
import SchemaCompiler.Yaml.Merge

/-!
# Documents from texts

A text is read into a tree by the rules of its format, and the tree is decoded. A JSON text always
has a tree, broken where it cannot be read; a YAML text has none when it breaks a rule anywhere.
-/

namespace SchemaCompiler

/-- Why a text is no document. -/
inductive DocumentFault where
  /-- The YAML text has no tree. -/
  | text (fault : Yaml.Fault)
  /-- The text has a tree, but the tree is no document. -/
  | content (format : Format) (fault : Fault)

/-- The wording of a fault, if it has one. -/
def DocumentFault.message? : DocumentFault → Option String
  | text fault => fault.message?
  | content format fault => some (fault.message format)

/-- The document of a text in a format. -/
def Document.parse (format : Format) (source : String) : Except DocumentFault Document :=
  match format with
  | .json => (Document.decode .json (.ofJson source)).mapError (.content .json)
  | .yaml =>
    match Tree.ofYaml source with
    | .error fault => .error (.text fault)
    | .ok tree => (Document.decode .yaml tree).mapError (.content .yaml)

end SchemaCompiler
