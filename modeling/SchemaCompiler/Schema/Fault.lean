import SchemaCompiler.Decimal.Layout
import SchemaCompiler.Text.Quoted
import SchemaCompiler.Tree.Basic
import SchemaCompiler.Tree.Format
import SchemaCompiler.Tree.Path

/-!
# Faults of a document

Why a tree is no document, and where. A fault has a path of keys and indices from the root of the
document to the value at fault, and a cause. Where the next key of a map cannot be read, the path
ends in a place that is not known.
-/

namespace SchemaCompiler

/-- What a value at fault is. -/
inductive Found where
  /-- The empty value. -/
  | null
  /-- A truth value. -/
  | bool (b : Bool)
  /-- A number. -/
  | number (n : Number)
  /-- A text. -/
  | text (s : String)
  /-- A list. -/
  | list
  /-- A map. -/
  | map
  /-- A value with a tag. -/
  | tagged

/-- What a value at fault should have been. -/
inductive Wanted where
  /-- A text. -/
  | text
  /-- A list. -/
  | list
  /-- A map. -/
  | map
  /-- A document. -/
  | document
  /-- A schema. -/
  | schema
  /-- The key of a field. -/
  | fieldKey
  /-- The first key of an object. -/
  | objectKey
  /-- A value of the JSON data model. -/
  | json
  deriving DecidableEq, Repr

/-- The types of nested values that are tried in several shapes. -/
inductive Choice where
  /-- A nested node. -/
  | node
  /-- The elements of an array. -/
  | items
  deriving DecidableEq, Repr

/-- Why a tree is no document. -/
inductive Cause where
  /-- The text cannot be read here. -/
  | unreadable (fault : SyntaxFault)
  /-- A value is of the wrong kind. -/
  | mismatch (found : Found) (wanted : Wanted)
  /-- A field is given twice. -/
  | duplicateField (name : String)
  /-- A schema given by its fields in order has too few of them. -/
  | tooFewFields (given : Nat)
  /-- Containers are nested too deep. -/
  | tooDeep
  /-- A nested node has a tag. -/
  | taggedNode
  /-- A nested value fits none of its shapes. -/
  | noShape (choice : Choice)

/-- The wording of what was wanted. -/
def Wanted.message : Wanted → String
  | text => "a string"
  | list => "a sequence"
  | map => "a map"
  | document => "struct Document"
  | schema => "struct RawSchema"
  | fieldKey => "field identifier"
  | objectKey => "a string key"
  | json => "any valid JSON value"

/-- The wording of what was found. The formats differ in how they call the empty value and in
how they write floating-point numbers. -/
def Found.message (format : Format) : Found → String
  | null =>
    match format with
    | .json => "null"
    | .yaml => "unit value"
  | bool b => "boolean `" ++ (if b then "true" else "false") ++ "`"
  | number (.integer n) => "integer `" ++ toString n ++ "`"
  | number (.float x) =>
    let layout : Decimal.Layout :=
      match format with
      | .json => .json
      | .yaml => .full
    "floating point `" ++ floatText layout x ++ "`"
  | text s => "string " ++ Text.quoted s
  | list => "sequence"
  | map => "map"
  | tagged => "enum"

/-- The wording of a cause. -/
def Cause.message (format : Format) : Cause → String
  | unreadable fault => fault.message
  | mismatch found wanted =>
    "invalid type: " ++ found.message format ++ ", expected " ++ wanted.message
  | duplicateField name => "duplicate field `" ++ name ++ "`"
  | tooFewFields given =>
    "invalid length " ++ toString given ++ ", expected struct RawSchema with 8 elements"
  | tooDeep => "recursion limit exceeded"
  | taggedNode => "untagged and internally tagged enums do not support enum input"
  | noShape .node => "data did not match any variant of untagged enum SubSchema"
  | noShape .items => "data did not match any variant of untagged enum Items"

/-- A fault of a document. -/
structure Fault where
  /-- The way from the root to the value at fault. -/
  path : List Segment
  /-- What is wrong with it. -/
  cause : Cause

/-- The wording of a fault with its place. -/
def Fault.message (format : Format) (fault : Fault) : String :=
  "at path " ++ pathText fault.path ++ " → " ++ fault.cause.message format

/-- The same fault, seen from the container that the value is a part of. -/
def Fault.under (segment : Segment) (fault : Fault) : Fault :=
  { fault with path := segment :: fault.path }

/-- What a tree is, without its tags, when it is not what was wanted. -/
def Found.ofTree : Tree → Found
  | .null | .broken _ => null
  | .bool b => bool b
  | .number n => number n
  | .text s => text s
  | .list _ => list
  | .map _ => map
  | .tagged _ _ => tagged

end SchemaCompiler
