import SchemaCompiler.Proofs.Table
import SchemaCompiler.Proofs.Traversal
import SchemaCompiler.TypeMap

/-!
# What the table of types says

An identifier stands for what the last definition with it stands for (`get?_ofDefinitions`), and a
reference is resolved exactly when some definition has the identifier that it names
(`fault?_resolve`). When no two definitions share an identifier, the table lists the definitions in
their order (`entries_ofDefinitions`), and what it says of an identifier does not depend on that
order (`get?_perm`).
-/

namespace SchemaCompiler

open Traversal

namespace Definition

/-- The definition that counts for an identifier: the last one that has it. -/
def lastOf? (definitions : List Definition) (id : String) : Option Definition :=
  definitions.reverse.find? (·.id = id)

/-- The faults of a reference: it has one when it names no definition. -/
def referenceFaults (definitions : List Definition) (reference : String) : List CompileFault :=
  if ∃ definition ∈ definitions, definition.id = Reference.target reference then []
  else [.unresolvedReference reference (Reference.target reference)]

theorem lastOf?_eq_some_iff {definitions : List Definition} {id : String} {definition : Definition} :
    lastOf? definitions id = some definition ↔
      definition.id = id ∧ ∃ earlier later, definitions = earlier ++ definition :: later ∧
        ∀ d ∈ later, d.id ≠ id := by
  simp only [lastOf?, find?_reverse_eq_some_iff, decide_eq_true_eq, decide_eq_false_iff_not, ne_eq]

theorem lastOf?_eq_none_iff {definitions : List Definition} {id : String} :
    lastOf? definitions id = none ↔ ¬ ∃ definition ∈ definitions, definition.id = id := by
  simp [lastOf?]

theorem id_of_lastOf? {definitions : List Definition} {id : String} {definition : Definition}
    (h : lastOf? definitions id = some definition) : definition.id = id :=
  (lastOf?_eq_some_iff.mp h).1

theorem mem_of_lastOf? {definitions : List Definition} {id : String} {definition : Definition}
    (h : lastOf? definitions id = some definition) : definition ∈ definitions := by
  obtain ⟨-, earlier, later, rfl, -⟩ := lastOf?_eq_some_iff.mp h
  simp

/-- With distinct identifiers every definition counts for its own. -/
theorem lastOf?_of_nodup {definitions : List Definition} (distinct : (definitions.map (·.id)).Nodup)
    {definition : Definition} (hmem : definition ∈ definitions) :
    lastOf? definitions definition.id = some definition := by
  obtain ⟨earlier, later, rfl⟩ := List.append_of_mem hmem
  rw [List.map_append, List.map_cons, List.nodup_append, List.nodup_cons] at distinct
  obtain ⟨-, ⟨absent, -⟩, -⟩ := distinct
  exact lastOf?_eq_some_iff.mpr
    ⟨rfl, earlier, later, rfl, fun d hd e => absent (e ▸ List.mem_map_of_mem hd)⟩

/-- Only an object stands for a model, and it stands for the one that has its type name. -/
theorem resolved_eq_model_iff (definition : Definition) (name : String) :
    definition.resolved = .model name ↔ definition.isObject ∧ definition.typeName = name := by
  cases h : definition.kind <;> simp [resolved, isObject, h]

end Definition

namespace TypeMap

open Definition

/-- An identifier stands for what the last definition with it stands for. -/
theorem get?_ofDefinitions (definitions : List Definition) (id : String) :
    (ofDefinitions definitions).get? id = (lastOf? definitions id).map Definition.resolved :=
  Table.get?_ofList_map Definition.id Definition.resolved definitions id

/-- A name in the table is the type name of the object that counts for the identifier. -/
theorem get?_eq_model_iff (definitions : List Definition) (id name : String) :
    (ofDefinitions definitions).get? id = some (.model name) ↔
      ∃ definition, lastOf? definitions id = some definition ∧ definition.isObject ∧
        definition.typeName = name := by
  simp only [get?_ofDefinitions, Option.map_eq_some_iff, resolved_eq_model_iff]

theorem resolve_eq_ok_iff (types : TypeMap) (reference : String) (resolved : Resolved) :
    types.resolve reference = .ok resolved ↔
      types.get? (Reference.target reference) = some resolved := by
  rw [resolve]
  cases types.get? (Reference.target reference) <;> simp

/-- A reference is resolved unless no definition has the identifier that it names. -/
theorem fault?_resolve (definitions : List Definition) (reference : String) :
    fault? ((ofDefinitions definitions).resolve reference) =
      (referenceFaults definitions reference).head? := by
  rw [resolve, get?_ofDefinitions, referenceFaults]
  cases h : lastOf? definitions (Reference.target reference) with
  | none =>
    rw [if_neg (lastOf?_eq_none_iff.mp h)]
    rfl
  | some definition =>
    rw [if_pos ⟨definition, mem_of_lastOf? h, id_of_lastOf? h⟩]
    rfl

/-- Tables that say the same of the identifier that a reference names resolve it alike. -/
theorem resolve_congr {types others : TypeMap} {reference : String}
    (h : types.get? (Reference.target reference) = others.get? (Reference.target reference)) :
    types.resolve reference = others.resolve reference := by
  rw [resolve, resolve, h]

/-! ### Distinct identifiers -/

section Distinct

variable {definitions others : List Definition} (distinct : (definitions.map Definition.id).Nodup)

include distinct

theorem get?_eq_some_iff_of_nodup (id : String) (resolved : Resolved) :
    (ofDefinitions definitions).get? id = some resolved ↔
      ∃ definition ∈ definitions, definition.id = id ∧ definition.resolved = resolved :=
  Table.get?_ofList_map_of_nodup Definition.resolved distinct id resolved

/-- The table has one entry for each definition, in their order. -/
theorem entries_ofDefinitions :
    (ofDefinitions definitions).table.entries =
      definitions.map fun definition => (definition.id, definition.resolved) := by
  refine Table.entries_ofList_of_nodup ?_
  rw [List.map_map]
  exact distinct

/-- What an identifier stands for does not depend on the order of the definitions. -/
theorem get?_perm (h : definitions.Perm others) (id : String) :
    (ofDefinitions definitions).get? id = (ofDefinitions others).get? id := by
  have distinct' : (others.map Definition.id).Nodup := (h.map Definition.id).nodup_iff.mp distinct
  refine Option.ext fun resolved => ?_
  rw [get?_eq_some_iff_of_nodup distinct, get?_eq_some_iff_of_nodup distinct']
  simp only [h.mem_iff]

end Distinct

end TypeMap

end SchemaCompiler
