/-!
# Formats

A schema is written in JSON or in YAML, and the name of its file tells which.
-/

namespace SchemaCompiler

/-- A format in which a document can be written. -/
inductive Format where
  /-- JSON. -/
  | json
  /-- YAML. -/
  | yaml
  deriving DecidableEq, Repr, Inhabited

namespace Format

/-- The format of a file: JSON when its path ends in `json`, whatever stands before, and YAML
otherwise. -/
def ofPath (path : String) : Format :=
  if path.endsWith "json" then json else yaml

/-- The name of a format in the log. -/
def name : Format → String
  | json => "Json"
  | yaml => "Yaml"

end Format

end SchemaCompiler
