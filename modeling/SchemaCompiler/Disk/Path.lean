/-!
# Paths

A path is a text with slashes between its components. The text is kept as it was put together and
is what messages show; `components` says which place it names by its spelling alone: doubled and
trailing slashes and points between slashes mean nothing, while a leading point and every `..`
are kept. Two paths are the same by spelling when their components are.
-/

namespace SchemaCompiler

/-- A component of a path. -/
inductive Component where
  /-- The root, in front of an absolute path. -/
  | root
  /-- A leading point. -/
  | here
  /-- Two points. -/
  | up
  /-- An ordinary name. -/
  | name (s : String)
  deriving DecidableEq, Repr, Inhabited

/-- A path as it was put together. -/
structure Path where
  /-- The path as text. -/
  text : String
  deriving DecidableEq, Repr, Inhabited

namespace Path

/-- Cuts a text at every slash. -/
def splitSlashes : List Char → List (List Char)
  | [] => [[]]
  | c :: rest =>
    if c = '/' then [] :: splitSlashes rest
    else
      match splitSlashes rest with
      | [] => [[c]]
      | piece :: later => (c :: piece) :: later

/-- The component that a piece between slashes is, unless it means nothing. -/
def componentOf? : List Char → Option Component
  | [] => none
  | ['.'] => none
  | ['.', '.'] => some .up
  | piece => some (.name (.ofList piece))

/-- The components of a path given as its characters. -/
def componentsOf (cs : List Char) : List Component :=
  match splitSlashes cs with
  | [] => []
  | first :: later =>
    let front :=
      if first.isEmpty then if later.isEmpty then [] else [.root]
      else if first = ['.'] then [.here]
      else (componentOf? first).toList
    front ++ later.filterMap componentOf?

/-- The components of a path. -/
def components (path : Path) : List Component :=
  componentsOf path.text.toList

/-- The pieces between the slashes of a path, as an operating system walks them. -/
def pieces (path : Path) : List String :=
  (splitSlashes path.text.toList).map String.ofList

/-- Whether a path starts at the root. -/
def isAbsolute (path : Path) : Bool :=
  path.text.toList.head? = some '/'

/-- A path followed by another. An absolute path replaces everything before it, and a slash is put
between the two only where there is none. -/
def join (path : Path) (next : String) : Path :=
  if isAbsolute ⟨next⟩ then ⟨next⟩
  else if path.text.isEmpty || path.text.toList.getLast? = some '/' then ⟨path.text ++ next⟩
  else ⟨path.text ++ "/" ++ next⟩

/-- A component as it is written between slashes. -/
def componentText : Component → String
  | .root => ""
  | .here => "."
  | .up => ".."
  | .name s => s

/-- The path that components spell. -/
def ofComponents : List Component → Path
  | [] => ⟨""⟩
  | [.root] => ⟨"/"⟩
  | components => ⟨"/".intercalate (components.map componentText)⟩

/-- The path of the directory that holds what a path names, by spelling. -/
def parent (path : Path) : Path :=
  ofComponents path.components.dropLast

/-- Whether two paths have the same components. -/
def same (a b : Path) : Bool :=
  a.components = b.components

end Path

end SchemaCompiler
