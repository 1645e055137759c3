import SchemaCompiler.Yaml.Tag

/-!
# YAML tokens

The tokens of a YAML text. Indentation appears as tokens of its own: a block collection has a
start token and an end token like a flow collection, although nothing in the text spells them.
-/

namespace SchemaCompiler.Yaml

/-- A token of a YAML text. -/
inductive Token where
  /-- The start of the text. -/
  | streamStart
  /-- The end of the text. -/
  | streamEnd
  /-- A directive that gives the version of the language. -/
  | version (major minor : Nat)
  /-- A directive that gives a tag handle a meaning. -/
  | tagHandle (handle : String) (meaning : Tag)
  /-- The marker of three hyphens. -/
  | documentStart
  /-- The marker of three points. -/
  | documentEnd
  /-- The start of a list by indentation. -/
  | blockListStart
  /-- The start of a map by indentation. -/
  | blockMapStart
  /-- The end of a list or map by indentation. -/
  | blockEnd
  /-- An opening bracket. -/
  | flowListStart
  /-- A closing bracket. -/
  | flowListEnd
  /-- An opening brace. -/
  | flowMapStart
  /-- A closing brace. -/
  | flowMapEnd
  /-- The hyphen before an item. -/
  | entry
  /-- The comma in a flow collection. -/
  | comma
  /-- The start of a key, whether spelt by a question mark or not. -/
  | key
  /-- The colon before a value. -/
  | value
  /-- A reference to an anchored value. -/
  | repetition (name : String)
  /-- The name of the value that follows. -/
  | anchor (name : String)
  /-- The tag of the value that follows. -/
  | tag (handle : String) (suffix : Tag)
  /-- A scalar; the flag tells whether it stands without quotes. -/
  | scalar (text : String) (plain : Bool)
  deriving DecidableEq, Repr, Inhabited

end SchemaCompiler.Yaml
