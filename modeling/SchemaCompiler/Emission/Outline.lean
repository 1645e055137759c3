import SchemaCompiler.Emission.Descriptor
import SchemaCompiler.Text.Lines

/-!
# Outlines

A model as a short text for readers: a notice, a header that names the model and what it extends,
and a block for each property with its type, its default and its methods. Every line of a
description becomes one line that starts with a hash. Pieces are joined by line feeds, and the
text ends in one.
-/

namespace SchemaCompiler.Outline

/-- The lines of a description. -/
def descriptionLines : Option String → List String
  | some description => (Text.lines description).map ("  # " ++ ·)
  | none => []

/-- A method as it is called. -/
def signature (method : Method) : String :=
  let hint :=
    match method.hint with
    | some ref => ": " ++ ref.shown
    | none => ""
  method.name ++ "(" ++ method.parameter ++ hint ++ ")"

/-- What follows the type of a property: whether it is required, else its default. -/
def state (property : PropertyDescriptor) : String :=
  if property.required then " (required)"
  else
    match property.default with
    | some default => " = " ++ default.shown
    | none => ""

/-- The lines of a property without its description. -/
def propertyLines (property : PropertyDescriptor) : List String :=
  ["  " ++ property.name ++ ": " ++ property.docType ++ state property,
    "    " ++ property.getter ++ "() -> " ++ property.docType,
    "    " ++ signature property.setter ++ " -> self"] ++
  (property.adder.map fun adder => "    " ++ signature adder ++ " -> self").toList

/-- The block of a property, which begins with an empty line. -/
def propertyBlock (property : PropertyDescriptor) : List String :=
  "" :: descriptionLines property.description ++ propertyLines property

/-- The two lines that every outline begins with. -/
def header (settings : Settings) (model : Model) : List String :=
  ["# " ++ generatedNotice,
    "model " ++ model.typeRef.shown ++ " extends " ++
      (model.parent.getD settings.baseRef).shown]

/-- The pieces of a model's outline. The last one is empty, so that the text ends in a line
feed. -/
def pieces (settings : Settings) (model : Model) : List String :=
  header settings model ++ descriptionLines model.description ++
    model.properties.flatMap propertyBlock ++ [""]

/-- The outline of a model. -/
def ofModel (settings : Settings) (model : Model) : String :=
  "\n".intercalate (pieces settings model)

/-- The outline of the base type. -/
def ofBase (settings : Settings) : String :=
  "# " ++ generatedNotice ++ "\nbase model " ++ settings.baseRef.shown ++ "\n"

end SchemaCompiler.Outline
