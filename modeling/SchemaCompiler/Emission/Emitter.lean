import SchemaCompiler.Emission.Outline

/-!
# Emitters

An emitter turns models into texts. What it makes of a model is its own affair, and it may fail to
make anything; a publication only knows its extension and calls it.

The program has two emitters: descriptors for tools and outlines for readers. Neither ever fails.

An emitter is a function of the settings and the model here: it gives the same answer whenever it is
asked. Its failures are told apart from the other faults of a publication.
-/

namespace SchemaCompiler

/-- Why a text cannot be made. -/
structure EmissionFault where
  /-- The reason that the emitter gives. -/
  reason : String
  deriving DecidableEq, Repr

/-- The wording of a fault. -/
def EmissionFault.message (fault : EmissionFault) : String :=
  "emission failed: " ++ fault.reason

/-- A form in which generated types are written. -/
structure Emitter where
  /-- The extension of a file in this form. -/
  extension : String
  /-- The text of a model. -/
  emitModel : Settings → Model → Except EmissionFault String
  /-- The text of the base type. -/
  emitBase : Settings → Except EmissionFault String

namespace Emitter

/-- JSON descriptors. -/
def json : Emitter where
  extension := "json"
  emitModel settings model := .ok (model.descriptor settings).pretty
  emitBase settings := .ok settings.baseDescriptor.pretty

/-- Text outlines. -/
def outline : Emitter where
  extension := "txt"
  emitModel settings model := .ok (Outline.ofModel settings model)
  emitBase settings := .ok (Outline.ofBase settings)

end Emitter

end SchemaCompiler
