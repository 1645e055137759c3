/-!
# References

A reference names a definition by the last segment of a pointer such as `#/definitions/pet`.
Inside a segment `~1` stands for a slash and `~0` for a tilde. `target` gives the identifier that
a reference names. The slash escape is undone before the tilde escape, so `~01` reads as `~1`.
-/

namespace SchemaCompiler.Reference

/-- Replaces every `~` followed by `digit` by one character, from left to right. -/
def undo (digit replacement : Char) : List Char → List Char
  | [] => []
  | '~' :: c :: rest =>
    if c = digit then replacement :: undo digit replacement rest
    else '~' :: undo digit replacement (c :: rest)
  | c :: rest => c :: undo digit replacement rest

/-- What follows the last slash of a reference, or all of it when it has none. -/
def lastSegment (reference : List Char) : List Char :=
  (reference.reverse.takeWhile (· != '/')).reverse

/-- The identifier that a reference names, on characters. -/
def targetOf (reference : List Char) : List Char :=
  undo '0' '~' (undo '1' '/' (lastSegment reference))

/-- The identifier that a reference names. -/
def target (reference : String) : String :=
  .ofList (targetOf reference.toList)

example : target "#/definitions/a~1b" = "a/b" := by decide
example : target "~01" = "~1" := by decide

end SchemaCompiler.Reference
