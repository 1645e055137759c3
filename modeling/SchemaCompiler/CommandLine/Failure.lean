import SchemaCompiler.Publication
import SchemaCompiler.Source
import SchemaCompiler.TypeMap

/-!
# Failures of a run

A failure is told by what failed, followed by the chain of its causes. A single cause is indented by
four spaces; several are numbered from zero. Further lines of a cause are indented as far as its
first.
-/

namespace SchemaCompiler.CommandLine

/-- Why a run failed. -/
structure Failure where
  /-- What failed. -/
  summary : String
  /-- Why, from the outermost cause inwards. -/
  causes : List String
  deriving DecidableEq, Repr

namespace Failure

/-- A failure in the course of something. -/
def within (summary : String) (failure : Failure) : Failure :=
  ⟨summary, failure.summary :: failure.causes⟩

/-- A cause behind a mark in front of its first line. -/
def indented (mark : String) (cause : String) : String :=
  let margin := "\n" ++ String.ofList (List.replicate mark.length ' ')
  mark ++ margin.intercalate (cause.splitOn "\n")

/-- A number at the right of five columns. -/
def numberMark (n : Nat) : String :=
  let digits := toString n
  String.ofList (List.replicate (5 - digits.length) ' ') ++ digits ++ ": "

/-- The causes, each on lines of its own. -/
def causeLines : List String → List String
  | [] => []
  | [cause] => [indented "    " cause]
  | causes => causes.mapIdx fun n cause => indented (numberMark n) cause

/-- A failure as it is told. -/
def report (failure : Failure) : String :=
  let causes :=
    match causeLines failure.causes with
    | [] => ""
    | lines => "\n\nCaused by:\n" ++ "\n".intercalate lines
  "Error: " ++ failure.summary ++ causes ++ "\n"

/-- The failure to compile definitions. -/
def ofCompileFault (fault : CompileFault) : Failure :=
  ⟨fault.message, []⟩

/-- The failure to load a file. -/
def ofLoadFault (fault : LoadFault) : Failure :=
  match fault with
  | .unreadable _ cause => ⟨fault.message, [cause.message]⟩
  | .undecodable .. => ⟨fault.message, []⟩

/-- The failure to turn a model into text. -/
def ofEmissionFault (fault : EmissionFault) : Failure :=
  ⟨fault.message, []⟩

/-- The failure to write models. -/
def ofPublicationFault (fault : PublicationFault) : Failure :=
  match fault with
  | .collision .. => ⟨fault.message, []⟩
  | .unemitted cause => .ofEmissionFault cause
  | .unwritable _ cause => ⟨fault.message, [cause.message]⟩

end Failure

end SchemaCompiler.CommandLine
