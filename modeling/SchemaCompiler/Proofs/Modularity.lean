import Mathlib.Logic.Relation
import SchemaCompiler.Proofs.Registration

/-!
# What a model depends on

A model is made of its own definition and of what the table of types says about the identifiers in it:
its own and those that it refers to. Of the definitions with these identifiers only the heading counts,
that is the identifier, the kind and the title; what they declare, require or extend never shows in the
model, not even when the model extends them (`compile_modular`).

An `Edit` is a change of a list of definitions that leaves the headings of these definitions alone. One
edit keeps what the table says about them (`get?_of_edit`), and so does any number of edits
(`get?_of_edits`).
-/

namespace SchemaCompiler

namespace Definition

/-- The part of a definition that the table of types is made from. -/
structure Heading where
  /-- The identifier. -/
  id : String
  /-- What kind of thing is defined. -/
  kind : Kind
  /-- The title. -/
  title : Option String

/-- The heading of a definition. -/
def heading (definition : Definition) : Heading :=
  ⟨definition.id, definition.kind, definition.title⟩

/-- The identifiers that the model of a definition depends on: its own and those that it refers to. -/
def names (definition : Definition) : List String :=
  definition.id :: definition.references.map Reference.target

/-- What a definition stands for is told by its heading. -/
theorem resolved_of_heading_eq {definition other : Definition}
    (h : other.heading = definition.heading) : other.resolved = definition.resolved := by
  simp only [heading, Heading.mk.injEq] at h
  obtain ⟨hid, hkind, htitle⟩ := h
  simp only [resolved, typeName, titleName?, hid, hkind, htitle]

/-- A change of a list of definitions that keeps the headings of those that `definition` depends on. -/
inductive Edit (definition : Definition) : List Definition → List Definition → Prop where
  /-- A definition on which `definition` does not depend is added somewhere. -/
  | add (front back : List Definition) (other : Definition) (h : other.id ∉ definition.names) :
      Edit definition (front ++ back) (front ++ other :: back)
  /-- A definition on which `definition` does not depend is removed. -/
  | remove (front back : List Definition) (other : Definition) (h : other.id ∉ definition.names) :
      Edit definition (front ++ other :: back) (front ++ back)
  /-- A definition is replaced by one with the same heading. -/
  | change (front back : List Definition) (other edited : Definition)
      (h : edited.heading = other.heading) :
      Edit definition (front ++ other :: back) (front ++ edited :: back)

end Definition

namespace TypeMap

open Definition

/-- A definition says nothing about the identifiers of others. -/
theorem get?_ofDefinitions_insert (front back : List Definition) {other : Definition} {id : String}
    (h : other.id ≠ id) :
    (ofDefinitions (front ++ other :: back)).get? id = (ofDefinitions (front ++ back)).get? id := by
  rw [get?_ofDefinitions, get?_ofDefinitions, lastOf?, lastOf?]
  simp [List.find?_append, h]

/-- Definitions with one heading have the same place in the table. -/
theorem ofDefinitions_replace (front back : List Definition) {other edited : Definition}
    (h : edited.heading = other.heading) :
    ofDefinitions (front ++ edited :: back) = ofDefinitions (front ++ other :: back) := by
  have hid : edited.id = other.id := congrArg Heading.id h
  rw [ofDefinitions, ofDefinitions, List.map_append, List.map_append, List.map_cons, List.map_cons,
    hid, resolved_of_heading_eq h]

variable {definition : Definition} {definitions others : List Definition}

/-- An edit keeps what the table says about the identifiers that the definition depends on. -/
theorem get?_of_edit (h : Edit definition definitions others) {id : String}
    (hid : id ∈ definition.names) :
    (ofDefinitions others).get? id = (ofDefinitions definitions).get? id := by
  cases h with
  | add front back other habsent =>
    exact get?_ofDefinitions_insert front back fun e => habsent (e ▸ hid)
  | remove front back other habsent =>
    exact (get?_ofDefinitions_insert front back fun e => habsent (e ▸ hid)).symm
  | change front back other edited hheading =>
    rw [ofDefinitions_replace front back hheading]

/-- Any number of edits keeps what the table says about these identifiers. -/
theorem get?_of_edits (h : Relation.ReflTransGen (Edit definition) definitions others) {id : String}
    (hid : id ∈ definition.names) :
    (ofDefinitions others).get? id = (ofDefinitions definitions).get? id := by
  induction h with
  | refl => rfl
  | tail _ hedit ih => exact (get?_of_edit hedit hid).trans ih

end TypeMap

variable {settings : Settings} {definition : Definition} {definitions others : List Definition}

/-- A definition is compiled alike where the tables agree on the identifiers that it depends on. -/
theorem compile_eq_of_names {types table : TypeMap}
    (h : ∀ id ∈ definition.names, types.get? id = table.get? id) :
    Model.compile types settings definition = Model.compile table settings definition :=
  Model.compile_congr settings (h _ (by simp [Definition.names])) fun _ href =>
    h _ (by simp only [Definition.names, List.mem_cons, List.mem_map]; exact .inr ⟨_, href, rfl⟩)

/-- A definition is the last object of a list that has its type name, so that its model is not replaced
by another. -/
def Definition.IsLast (definition : Definition) (definitions : List Definition) : Prop :=
  definitions.reverse.find? (fun d => d.isObject && d.typeName = definition.typeName) =
    some definition

/-- An object whose model is not replaced has it under its type name. -/
theorem get?_of_isLast {generation : Generation} (distinct : (definitions.map (·.id)).Nodup)
    (hlast : definition.IsLast definitions)
    (h : Generation.ofDefinitions settings definitions = .ok generation) :
    ∃ model, Model.compile (.ofDefinitions definitions) settings definition = .ok model ∧
      generation.models.get? definition.typeName = some model := by
  rw [Definition.IsLast, find?_reverse_eq_some_iff] at hlast
  obtain ⟨hobj, earlier, later, hsplit, hlater⟩ := hlast
  simp only [decide_true, Bool.and_true] at hobj
  obtain ⟨model, hm⟩ := Generation.exists_ok_iff.mp ⟨generation, h⟩ definition (by simp [hsplit]) hobj
  refine ⟨model, hm, ?_⟩
  rw [Generation.get?_eq_some_iff_of_nodup distinct h, Generation.types_of_ok h]
  refine ⟨earlier, definition, later, hsplit, hobj, rfl, fun d hd hd' => ?_, hm⟩
  simpa [hd'] using hlater d hd

/-- **Modularity.** A definition is compiled alike among any two lists of definitions whose tables of
types agree on its identifier and on those that it refers to, and so it is after any number of edits
elsewhere: the model is the same, or the fault is. Two runs in which the model is not replaced then have
the same model under its name. -/
theorem compile_modular (distinct : (definitions.map (·.id)).Nodup)
    (distinct' : (others.map (·.id)).Nodup)
    (h : (∀ id ∈ definition.names,
        (TypeMap.ofDefinitions others).get? id = (TypeMap.ofDefinitions definitions).get? id) ∨
      Relation.ReflTransGen (Definition.Edit definition) definitions others)
    (settings : Settings) :
    Model.compile (.ofDefinitions others) settings definition =
      Model.compile (.ofDefinitions definitions) settings definition ∧
    (definition.IsLast definitions → definition.IsLast others →
      ∀ first second, Generation.ofDefinitions settings definitions = .ok first →
        Generation.ofDefinitions settings others = .ok second →
        ∃ model, first.models.get? definition.typeName = some model ∧
          second.models.get? definition.typeName = some model) := by
  have hnames : ∀ id ∈ definition.names,
      (TypeMap.ofDefinitions others).get? id = (TypeMap.ofDefinitions definitions).get? id := by
    rcases h with hagree | hedits
    · exact hagree
    · exact fun id hid => TypeMap.get?_of_edits hedits hid
  have hcompile : Model.compile (.ofDefinitions others) settings definition =
      Model.compile (.ofDefinitions definitions) settings definition := compile_eq_of_names hnames
  refine ⟨hcompile, fun hlast hlast' first second hfirst hsecond => ?_⟩
  obtain ⟨model, hm, hget⟩ := get?_of_isLast distinct hlast hfirst
  obtain ⟨other, hm', hget'⟩ := get?_of_isLast distinct' hlast' hsecond
  rw [hcompile, hm, Except.ok.injEq] at hm'
  exact ⟨model, hget, hm' ▸ hget'⟩

/-- A dog is a pet, and has an owner and tags. -/
def dog : Definition :=
  { id := "dog", kind := .object, parent := some "#/definitions/pet", required := ["owner"],
    properties := [⟨"owner", .reference "#/definitions/owner", none⟩,
      ⟨"tags", .arrayOf (.reference "#/definitions/tag"), none⟩] }

/-- The pet declares a name, the owner is a text, and there is a shop. -/
def kennel : List Definition :=
  [{ id := "pet", kind := .object, properties := [⟨"name", .primitive "string", none⟩] },
   { id := "shop", kind := .object, properties := [⟨"pets", .arrayOf (.reference "pet"), none⟩] },
   dog,
   { id := "owner", kind := .primitive "string" },
   { id := "tag", kind := .object }]

/-- The pet has come to extend the dog and declares something else, and the shop is gone. -/
def shelter : List Definition :=
  [{ id := "pet", kind := .object, parent := some "dog", required := ["owner"],
     properties := [⟨"owner", .mixed, none⟩, ⟨"age", .primitive "integer", none⟩] },
   dog,
   { id := "owner", kind := .primitive "string" },
   { id := "tag", kind := .object }]

/-- The dog keeps its model, which has the properties of its own definition alone. -/
theorem dog_in_shelter :
    Relation.ReflTransGen (Definition.Edit dog) kennel shelter ∧
    ∃ first second, Generation.ofDefinitions {} kennel = .ok first ∧
      Generation.ofDefinitions {} shelter = .ok second ∧
      first.models.get? "Dog" = second.models.get? "Dog" ∧
      ((first.models.get? "Dog").map fun model => (model.parent, model.properties.map (·.name))) =
        some (some ⟨"Model", "Pet"⟩, ["owner", "tags"]) := by
  have hedits : Relation.ReflTransGen (Definition.Edit dog) kennel shelter := by
    refine .tail (.single (.remove (kennel.take 1) (kennel.drop 2) kennel[1] (by decide))) ?_
    exact .change [] (kennel.drop 2) kennel[0] shelter[0] rfl
  have distinct : (kennel.map (·.id)).Nodup := by decide
  have distinct' : (shelter.map (·.id)).Nodup := by decide
  have hlast : dog.IsLast kennel := by
    rw [Definition.IsLast]
    decide
  have hlast' : dog.IsLast shelter := by
    rw [Definition.IsLast]
    decide
  obtain ⟨model, hget, hget'⟩ :=
    (compile_modular distinct distinct' (.inr hedits) {}).2 hlast hlast' _ _ rfl rfl
  have hname : dog.typeName = "Dog" := by decide
  rw [hname] at hget hget'
  exact ⟨hedits, _, _, rfl, rfl, hget.trans hget'.symm, by decide +kernel⟩

end SchemaCompiler
