/-!
# Places in a tree

The way from the root of a document to a value is a list of segments: keys of maps and indices of
lists. Where a key cannot be named, its place is not known.
-/

namespace SchemaCompiler

/-- A step from a value to a part of it. -/
inductive Segment where
  /-- The value of a key. -/
  | key (name : String)
  /-- An item of a list. -/
  | index (i : Nat)
  /-- A place inside a map that has no name. -/
  | unknown
  deriving DecidableEq, Repr, Inhabited

/-- A segment as part of a path; the flag tells whether the path begins with it. -/
def Segment.shown (first : Bool) : Segment → String
  | key name => (if first then "" else ".") ++ name
  | index i => "[" ++ toString i ++ "]"
  | unknown => if first then "?" else ".?"

/-- A path as text; the root is a point. -/
def pathText : List Segment → String
  | [] => "."
  | segment :: segments => segment.shown true ++ String.join (segments.map (·.shown false))

end SchemaCompiler
