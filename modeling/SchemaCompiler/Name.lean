import SchemaCompiler.Text.Blank
import SchemaCompiler.Text.Uppercase

/-!
# Names

How the names in a generated model are derived from the words of a schema.

* A **type name** comes from a title: the first character of every word is raised, the words are
  joined, and only ASCII letters and digits are kept.
* An **accessor stem** comes from a property name: `_` and `-` separate its segments, the first
  character of every segment is raised, and the separators are dropped.
* A **singular** is a name without its last `s`, unless nothing would be left or the name ends in
  a double `s`.

Raising a character follows the full uppercase mapping, so it may yield several characters.
-/

namespace SchemaCompiler.Name

open Text

/-! ### Type names -/

/-- Raises the first character of every word. The flag tells whether a word may start here. -/
def raiseWords : Bool → List Char → List Char
  | _, [] => []
  | atStart, c :: rest =>
    (if atStart && !isBlank c then uppercase c else [c]) ++ raiseWords (isBlank c) rest

/-- Whether a character may stand in a type name: an ASCII letter or digit. -/
def isTypeNameChar (c : Char) : Bool :=
  c.isAlphanum

/-- The type name of a title, on characters. -/
def typeNameOf (title : List Char) : List Char :=
  (raiseWords true title).filter isTypeNameChar

/-- The type name of a title. It is empty when the title has no letter or digit to keep. -/
def typeName (title : String) : String :=
  .ofList (typeNameOf title.toList)

/-! ### Accessors -/

/-- Whether a character separates the segments of a property name. -/
def isSeparator (c : Char) : Bool :=
  c == '_' || c == '-'

/-- Joins the segments of a property name with each first character raised. The flag tells
whether the next character that is kept is to be raised. -/
def raiseSegments : Bool → List Char → List Char
  | _, [] => []
  | raised, c :: rest =>
    if isSeparator c then raiseSegments true rest
    else (if raised then uppercase c else [c]) ++ raiseSegments false rest

/-- The stem that the accessors of a property share. -/
def accessorStem (property : String) : String :=
  .ofList (raiseSegments true property.toList)

/-- The name of the method that reads a property. -/
def getter (stem : String) : String :=
  "get" ++ stem

/-- The name of the method that replaces a property. -/
def setter (stem : String) : String :=
  "set" ++ stem

/-- The name of the method that adds one element to a property. -/
def adder (stem : String) : String :=
  "add" ++ stem

/-! ### Singulars -/

/-- Whether a character is the plural letter. -/
def isPluralLetter (c : Char) : Bool :=
  c == 's' || c == 'S'

/-- A name without its last `s`, read from its end. -/
def singularReversed : List Char → List Char
  | c :: d :: stem => if isPluralLetter c && !isPluralLetter d then d :: stem else c :: d :: stem
  | short => short

/-- The singular of a name, on characters. -/
def singularOf (name : List Char) : List Char :=
  (singularReversed name.reverse).reverse

/-- The singular of a name: the name without its last `s`, unless that is all of it or the
letter before it is one as well. -/
def singular (name : String) : String :=
  .ofList (singularOf name.toList)

end SchemaCompiler.Name
