import SchemaCompiler.Decimal.Layout
import SchemaCompiler.Text.Quoted
import SchemaCompiler.Tree.Basic
import SchemaCompiler.Tree.Path

/-!
# Faults of a YAML text

Why a YAML text has no tree. Some of the causes have no wording of their own: where the text breaks
a rule of the language, or a scalar has no value, all that is said is that the text is at fault.
-/

namespace SchemaCompiler.Yaml

/-! ### Places -/

/-- A place in a YAML document. -/
structure Place where
  /-- The way to it, innermost segment first. -/
  way : List Segment := []
  /-- Whether the way starts in a node that is repeated as a key of the root. -/
  fromRepeat : Bool := false
  deriving DecidableEq, Repr, Inhabited

namespace Place

/-- The place of a part of the value at a place. -/
def under (place : Place) (segment : Segment) : Place :=
  { place with way := segment :: place.way }

/-- The place of a node that is repeated at a place. -/
def repeated (place : Place) : Place :=
  { place with fromRepeat := place.fromRepeat || place.way.isEmpty }

/-- A place in a message. The root is a point, which is left out in front of a key unless the way
starts in a repeated node, and is not left out in front of an index. -/
def text (place : Place) : String :=
  match place.way.reverse with
  | [] => "."
  | .index i :: way => ".[" ++ toString i ++ "]" ++ String.join (way.map (·.shown false))
  | way => if place.fromRepeat then "." ++ String.join (way.map (·.shown false)) else pathText way

end Place

/-! ### Faults -/

/-- Why a YAML text has no tree. -/
inductive Fault where
  /-- The text breaks a rule of the language. -/
  | unreadable
  /-- A scalar has no value. -/
  | noValue
  /-- A node is repeated that has no name. -/
  | unknownAnchor
  /-- Collections are nested too deep. -/
  | tooDeep
  /-- Nodes are repeated too often. -/
  | tooManyRepeats
  /-- A map at a place has a key twice. -/
  | duplicateKey (place : Place) (key : Tree)
  /-- There is more than one document. -/
  | severalDocuments
  /-- What is to be merged is a scalar. -/
  | mergedScalar
  /-- One of the things to be merged is a scalar. -/
  | mergedItemScalar
  /-- One of the things to be merged is a list. -/
  | mergedItemList
  /-- What is to be merged has a tag. -/
  | mergedTag

/-- The wording of a key that a map has twice. -/
def keyText : Tree → String
  | .null => "with null key"
  | .bool b => "with key `" ++ (if b then "true" else "false") ++ "`"
  | .number (.integer n) => "with key " ++ toString n
  | .number (.float x) =>
    "with key " ++
      (if x.isNaN then ".nan"
      else if x.isInf then (if x < 0.0 then "-.inf" else ".inf")
      else floatText .yamlKey x)
  | .text s => "with key " ++ Text.quoted s
  | _ => "in YAML map"

/-- The wording of a fault, if it has one. -/
def Fault.message? (fault : Fault) : Option String :=
  let text? :=
    match fault with
    | unreadable | noValue => none
    | unknownAnchor => some "unknown anchor"
    | tooDeep => some "recursion limit exceeded"
    | tooManyRepeats => some "repetition limit exceeded"
    | duplicateKey place key =>
      some ((if place.way.isEmpty then "" else place.text ++ ": ") ++
        "duplicate entry " ++ keyText key)
    | severalDocuments =>
      some "deserializing from YAML containing more than one document is not supported"
    | mergedScalar => some "expected a mapping or list of mappings for merging, but found scalar"
    | mergedItemScalar => some "expected a mapping for merging, but found scalar"
    | mergedItemList => some "expected a mapping for merging, but found sequence"
    | mergedTag => some "unexpected tagged value in merge"
  text?.map ("→ " ++ ·)

end SchemaCompiler.Yaml
