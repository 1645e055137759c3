import SchemaCompiler.Proofs.Compilation

/-!
# Under which names models are registered

When no two definitions share an identifier, an object is compiled under its own type name, and the
models of a run are determined by the type names of its objects: these are the names of the run, each
once, in the order of their first occurrence, and the last object with a name has its model there
(`models_register_last_object`). The order of the definitions then matters only where objects share a
type name, and for the order of the models (`run_perm`).
-/

namespace SchemaCompiler

open Traversal

variable {settings : Settings} {definitions others : List Definition} {generation : Generation}

namespace Generation

/-- A run succeeds exactly when every object can be compiled. -/
theorem exists_ok_iff :
    (∃ generation, ofDefinitions settings definitions = .ok generation) ↔
      ∀ definition ∈ definitions, definition.isObject →
        ∃ model, Model.compile (.ofDefinitions definitions) settings definition = .ok model := by
  simp only [← fault?_eq_none_iff, fault?_ofDefinitions, List.findSome?_eq_none_iff,
    List.mem_filter, and_imp]

section Distinct

variable (distinct : (definitions.map (·.id)).Nodup)

include distinct

/-- With distinct identifiers an object is compiled under its own type name. -/
theorem nameOf_of_nodup {definition : Definition} (hmem : definition ∈ definitions)
    (hobj : definition.isObject) :
    Model.nameOf (.ofDefinitions definitions) definition = definition.typeName := by
  have hget : (TypeMap.ofDefinitions definitions).get? definition.id =
      some (.model definition.typeName) := by
    rw [TypeMap.get?_eq_some_iff_of_nodup distinct]
    exact ⟨definition, hmem, rfl, (Definition.resolved_eq_model_iff _ _).mpr ⟨hobj, rfl⟩⟩
  rw [Model.nameOf, hget]

theorem keys_of_nodup (h : ofDefinitions settings definitions = .ok generation) :
    generation.models.keys = ((definitions.filter (·.isObject)).map (·.typeName)).eraseDups := by
  rw [keys_of_ok h, types_of_ok h]
  congr 1
  refine List.map_congr_left fun definition hmem => ?_
  rw [List.mem_filter] at hmem
  exact nameOf_of_nodup distinct hmem.1 hmem.2

theorem get?_eq_some_iff_of_nodup (h : ofDefinitions settings definitions = .ok generation)
    (name : String) (model : Model) :
    generation.models.get? name = some model ↔
      ∃ earlier definition later, definitions = earlier ++ definition :: later ∧
        definition.isObject ∧ definition.typeName = name ∧
        (∀ d ∈ later, d.isObject → d.typeName ≠ name) ∧
        Model.compile generation.types settings definition = .ok model := by
  rw [get?_eq_some_iff h, types_of_ok h]
  refine exists_congr fun earlier => exists_congr fun definition => exists_congr fun later =>
    and_congr_right fun hsplit => and_congr_right fun hobj => ?_
  have hname : Model.nameOf (.ofDefinitions definitions) definition = definition.typeName :=
    nameOf_of_nodup distinct (by simp [hsplit]) hobj
  have hlater : (∀ d ∈ later, d.isObject → Model.nameOf (.ofDefinitions definitions) d ≠ name) ↔
      ∀ d ∈ later, d.isObject → d.typeName ≠ name := by
    refine forall₂_congr fun d hd => forall_congr' fun hd' => ?_
    rw [nameOf_of_nodup distinct (by simp [hsplit, hd]) hd']
  rw [hname, hlater]

/-- When also the type names of the objects are distinct, each has its own model. -/
theorem get?_eq_some_iff_of_distinct_names
    (names : ((definitions.filter (·.isObject)).map (·.typeName)).Nodup)
    (h : ofDefinitions settings definitions = .ok generation) (name : String) (model : Model) :
    generation.models.get? name = some model ↔
      ∃ definition ∈ definitions, definition.isObject ∧ definition.typeName = name ∧
        Model.compile (.ofDefinitions definitions) settings definition = .ok model := by
  rw [get?_eq_some_iff_of_nodup distinct h, types_of_ok h]
  constructor
  · rintro ⟨earlier, definition, later, hsplit, hobj, hname, -, hm⟩
    exact ⟨definition, by simp [hsplit], hobj, hname, hm⟩
  · rintro ⟨definition, hmem, hobj, rfl, hm⟩
    obtain ⟨earlier, later, hsplit⟩ := List.append_of_mem hmem
    refine ⟨earlier, definition, later, hsplit, hobj, rfl, fun d hd hd' e => ?_, hm⟩
    -- a later object with the name would repeat it
    rw [hsplit, List.filter_append, List.filter_cons_of_pos hobj, List.map_append, List.map_cons,
      List.nodup_append, List.nodup_cons] at names
    refine names.2.1.1 (e ▸ List.mem_map_of_mem ?_)
    exact List.mem_filter.mpr ⟨hd, hd'⟩

end Distinct

end Generation

/-! ### The registration law -/

/-- **Registration.** The names of a run are the type names of its objects, each once, in the order of
their first occurrence; a name has the model of the last object with that type name, with the
properties of that object in their order; a name is one of the run exactly when some identifier stands
for a model of that name; and the table of types has one entry for each definition, in order. -/
theorem models_register_last_object (distinct : (definitions.map (·.id)).Nodup)
    (h : Generation.ofDefinitions settings definitions = .ok generation) :
    generation.models.keys =
      ((definitions.filter (·.isObject)).map (·.typeName)).eraseDups ∧
    (∀ name model, generation.models.get? name = some model ↔
      ∃ earlier definition later, definitions = earlier ++ definition :: later ∧
        definition.isObject ∧ definition.typeName = name ∧
        (∀ d ∈ later, d.isObject → d.typeName ≠ name) ∧
        Model.compile generation.types settings definition = .ok model ∧
        model.properties.map (·.name) = definition.properties.map (·.name)) ∧
    (∀ name, name ∈ generation.models.keys ↔
      ∃ id, (id, Resolved.model name) ∈ generation.types.table.entries) ∧
    generation.types.table.entries = definitions.map fun d => (d.id, d.resolved) := by
  have hentries : generation.types.table.entries = definitions.map fun d => (d.id, d.resolved) := by
    rw [Generation.types_of_ok h, TypeMap.entries_ofDefinitions distinct]
  refine ⟨Generation.keys_of_nodup distinct h, fun name model => ?_, fun name => ?_, hentries⟩
  · rw [Generation.get?_eq_some_iff_of_nodup distinct h]
    constructor
    · rintro ⟨earlier, definition, later, hsplit, hobj, hname, hlater, hm⟩
      exact ⟨earlier, definition, later, hsplit, hobj, hname, hlater, hm,
        Model.property_names_of_compile hm⟩
    · rintro ⟨earlier, definition, later, hsplit, hobj, hname, hlater, hm, -⟩
      exact ⟨earlier, definition, later, hsplit, hobj, hname, hlater, hm⟩
  · rw [Generation.keys_of_nodup distinct h, List.mem_eraseDups, hentries]
    simp [Definition.resolved_eq_model_iff, and_assoc]

/-- Two objects with one type name, and between them another object and a primitive. -/
def colliding : List Definition :=
  [{ id := "pet", kind := .object, title := some "Animal",
     properties := [⟨"name", .primitive "string", none⟩] },
   { id := "tag", kind := .object },
   { id := "sku", kind := .primitive "string" },
   { id := "animal", kind := .object,
     properties := [⟨"sku", .reference "#/definitions/sku", none⟩,
       ⟨"tags", .arrayOf (.reference "#/definitions/tag"), none⟩] }]

/-- The name keeps the place of the first and has the properties of the last. -/
theorem colliding_registered :
    ∃ generation, Generation.ofDefinitions {} colliding = .ok generation ∧
      generation.models.keys = ["Animal", "Tag"] ∧
      ∃ model, generation.models.get? "Animal" = some model ∧
        model.properties.map (·.name) = ["sku", "tags"] := by
  have distinct : (colliding.map (·.id)).Nodup := by decide
  have h := (rfl : Generation.ofDefinitions {} colliding = .ok _)
  obtain ⟨hkeys, hmodels, -⟩ := models_register_last_object distinct h
  obtain ⟨model, hm⟩ : ∃ model,
      Model.compile (.ofDefinitions colliding) {} colliding[3] = .ok model := ⟨_, rfl⟩
  have hprops := Model.property_names_of_compile hm
  refine ⟨_, h, hkeys.trans (by decide), model, (hmodels "Animal" model).mpr ?_, hprops⟩
  exact ⟨colliding.take 3, colliding[3], [], rfl, rfl, by decide, by simp, hm, hprops⟩

/-! ### The order of the definitions -/

section Order

variable (distinct : (definitions.map (·.id)).Nodup) (h : definitions.Perm others)

include distinct h

/-- With distinct identifiers a definition is compiled alike in every order. -/
theorem compile_perm (definition : Definition) :
    Model.compile (.ofDefinitions definitions) settings definition =
      Model.compile (.ofDefinitions others) settings definition :=
  Model.compile_congr settings (TypeMap.get?_perm distinct h _) fun _ _ =>
    TypeMap.get?_perm distinct h _

/-- **Order independence.** With distinct identifiers the table of types says the same in every order
of the definitions, and a run succeeds in every order or in none. When the objects have distinct type
names as well, the models are the same under every name and come in the order of the objects. -/
theorem run_perm (settings : Settings) :
    (∀ id, (TypeMap.ofDefinitions definitions).get? id = (TypeMap.ofDefinitions others).get? id) ∧
    (∀ reference, (TypeMap.ofDefinitions definitions).resolve reference =
      (TypeMap.ofDefinitions others).resolve reference) ∧
    ((∃ generation, Generation.ofDefinitions settings definitions = .ok generation) ↔
      ∃ generation, Generation.ofDefinitions settings others = .ok generation) ∧
    (((definitions.filter (·.isObject)).map (·.typeName)).Nodup →
      ∀ first second, Generation.ofDefinitions settings definitions = .ok first →
        Generation.ofDefinitions settings others = .ok second →
        (∀ name, first.models.get? name = second.models.get? name) ∧
        first.models.keys = (definitions.filter (·.isObject)).map (·.typeName) ∧
        second.models.keys = (others.filter (·.isObject)).map (·.typeName)) := by
  refine ⟨TypeMap.get?_perm distinct h,
    fun _ => TypeMap.resolve_congr (TypeMap.get?_perm distinct h _), ?_, ?_⟩
  · -- success asks the same of each object, and the objects are the same
    simp only [Generation.exists_ok_iff, h.mem_iff, compile_perm distinct h]
  · intro names first second hfirst hsecond
    have distinct' : (others.map (·.id)).Nodup := (h.map _).nodup_iff.mp distinct
    have names' : ((others.filter (·.isObject)).map (·.typeName)).Nodup :=
      ((h.filter _).map _).nodup_iff.mp names
    refine ⟨fun name => Option.ext fun model => ?_, ?_, ?_⟩
    · rw [Generation.get?_eq_some_iff_of_distinct_names distinct names hfirst,
        Generation.get?_eq_some_iff_of_distinct_names distinct' names' hsecond]
      simp only [h.mem_iff, compile_perm distinct h]
    · rw [Generation.keys_of_nodup distinct hfirst, eraseDups_of_nodup names]
    · rw [Generation.keys_of_nodup distinct' hsecond, eraseDups_of_nodup names']

end Order

/-- Two objects that refer to each other and a primitive that one of them refers to. -/
def shop : List Definition :=
  [{ id := "pet", kind := .object, properties := [⟨"tag", .reference "#/definitions/tag", none⟩] },
   { id := "sku", kind := .primitive "string" },
   { id := "tag", kind := .object, parent := some "#/definitions/pet",
     properties := [⟨"sku", .reference "#/definitions/sku", none⟩] }]

/-- Read backwards they yield the same models in the opposite order. -/
theorem shop_reversed :
    ∃ first second, Generation.ofDefinitions {} shop = .ok first ∧
      Generation.ofDefinitions {} shop.reverse = .ok second ∧
      (∀ name, first.models.get? name = second.models.get? name) ∧
      first.models.keys = ["Pet", "Tag"] ∧ second.models.keys = ["Tag", "Pet"] := by
  have distinct : (shop.map (·.id)).Nodup := by decide
  have names : ((shop.filter (·.isObject)).map (·.typeName)).Nodup := by decide
  have horder : shop.Perm shop.reverse := shop.reverse_perm.symm
  obtain ⟨hsame, hfirst, hsecond⟩ := (run_perm distinct horder {}).2.2.2 names _ _ rfl rfl
  exact ⟨_, _, rfl, rfl, hsame, hfirst.trans (by decide), hsecond.trans (by decide)⟩

end SchemaCompiler
