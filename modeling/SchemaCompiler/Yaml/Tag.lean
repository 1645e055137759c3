/-!
# Tags of YAML values

A tag is a string of octets. Those that a text spells by their numbers need not be the octets of
any text, and a tag ends before the first of them that is zero.

A tag that begins with an exclamation mark is local: it has a meaning for those who wrote the
document only. Its name is what follows the mark, and a second mark there does not count either. A
local tag whose octets are no text has no name.
-/

namespace SchemaCompiler.Yaml

/-- A tag of a YAML value. -/
structure Tag where
  /-- The octets of the tag. -/
  octets : List UInt8
  deriving DecidableEq, Repr, Inhabited

namespace Tag

/-- The tag that a text spells. -/
def ofText (s : String) : Tag :=
  ⟨s.toUTF8.toList⟩

/-- The tag that octets spell, which ends before the first zero. -/
def ofOctets (octets : List UInt8) : Tag :=
  ⟨octets.takeWhile (· ≠ 0)⟩

/-- A tag behind another. -/
def append (tag other : Tag) : Tag :=
  ⟨tag.octets ++ other.octets⟩

/-- Whether a tag has no octets. -/
def isEmpty (tag : Tag) : Bool :=
  tag.octets.isEmpty

/-- The code of an exclamation mark. -/
def mark : UInt8 := 0x21

/-- The tag of an exclamation mark alone. -/
def lone : Tag := ⟨[mark]⟩

/-- The tag of a standard type. -/
def standard (name : String) : Tag :=
  ofText ("tag:yaml.org,2002:" ++ name)

/-- Octets without an exclamation mark in front, unless that is all of them. -/
def withoutMark : List UInt8 → List UInt8
  | first :: second :: rest => if first = mark then second :: rest else first :: second :: rest
  | octets => octets

/-- Whether a tag is local. -/
def isLocal (tag : Tag) : Bool :=
  tag.octets.head? == some mark

/-- The name of a local tag. -/
def localName? (tag : Tag) : Option String :=
  if tag.isLocal then String.fromUTF8? ⟨(withoutMark (withoutMark tag.octets)).toArray⟩ else none

/-- A tag never holds a zero octet. -/
theorem zero_notMem_ofOctets (octets : List UInt8) : 0 ∉ (ofOctets octets).octets := by
  intro h
  simpa using List.all_eq_true.1 List.all_takeWhile 0 h

example : lone.localName? = some "!" := by decide +kernel
example : (ofText "!pet").localName? = some "pet" := by decide +kernel
example : (ofText "!!pet").localName? = some "pet" := by decide +kernel
example : (ofText "pet").localName? = none := by decide +kernel

end Tag

end SchemaCompiler.Yaml
