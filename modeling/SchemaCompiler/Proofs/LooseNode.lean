import SchemaCompiler.Proofs.Fault
import SchemaCompiler.Proofs.Nesting
import SchemaCompiler.Proofs.ShallowFault

/-!
# Nodes that are no maps

A nested node that is no object is kept as the JSON value that it is, with one exception: an array
with one item for each of the eight fields, in order, is read as the schema with these fields as soon as
every item could be the value of its field (`Json.Positional`). So whether such a node counts is told by
its value alone, wherever it stands (`child?_of_not_object`).

A property that is kept as it is has a type of which nothing is known, which compiles under all
circumstances, and as a part of a composition such a node adds nothing. For a document as a whole this
is `nodes_loose_unless_positional`.
-/

namespace SchemaCompiler

open Traversal

/-! ### Reading one value -/

/-- Whether a value is an array that gives the eight fields of a schema in order. -/
def Json.Positional (value : Json) : Prop :=
  ∃ items, value = .list items ∧
    List.Forall₂ (fun key item => ∀ path, ¬ Key.FaultAt key item path) Key.all items

namespace Node

/-- A value fits a field unless it is of the wrong kind. -/
theorem exists_setField?_iff (key : Key) (value : Json) :
    (∃ given, setField? key {} value.tree = some given) ↔ ∀ path, ¬ key.FaultAt value path := by
  have houtcome : Outcome (decodeField .json value.depth key {} value.tree) (key.faults value)
      (setField? key {} value.tree) := outcome_decodeField key (Nat.le_refl value.depth)
  rw [← Option.isSome_iff_exists, houtcome.isSome_iff]
  simp only [← Json.mem_keyFaults_iff, List.mem_map, not_exists, not_and]
  constructor
  · rintro hnil path fault hfault
    simp [hnil] at hfault
  · exact fun h => List.eq_nil_iff_forall_not_mem.mpr fun fault hfault => h _ fault hfault rfl

/-- An array is a schema exactly when it gives the fields in order. -/
theorem exists_positional?_tree_iff (items : List Json) :
    (∃ schema, positional? Key.all {} (Json.treeItems items) = some schema) ↔
      (Json.list items).Positional := by
  rw [exists_positional?_iff, Json.treeItems_eq_map, List.forall₂_map_right_iff]
  simp only [exists_setField?_iff, Json.Positional, Json.list.injEq, exists_eq_left']

/-- A value that is no object is a schema when it gives the fields in order. -/
theorem exists_ofTree?_of_positional {value : Json} (h : value.Positional) :
    ∃ schema, ofTree? value.tree = some (.schema schema) := by
  obtain ⟨items, rfl, -⟩ := id h
  obtain ⟨schema, hschema⟩ := (exists_positional?_tree_iff items).mpr h
  exact ⟨schema, by rw [Json.tree, ofTree?, hschema, orLoose]⟩

/-- And otherwise it is kept as it is. -/
theorem ofTree?_of_not_positional {value : Json} (regular : value.Regular)
    (hobject : ∀ entries, value ≠ .object entries) (h : ¬ value.Positional) :
    ofTree? value.tree = some (.loose value) := by
  have hkept := Json.ofTree?_tree regular
  have hloose : orLoose none value.tree = some (.loose value) := by
    rw [orLoose, hkept, Option.map_some]
  cases value with
  | object entries => exact absurd rfl (hobject entries)
  | list items =>
    have hnone : positional? Key.all {} (Json.treeItems items) = none := by
      rw [Option.eq_none_iff_forall_ne_some]
      exact fun schema hschema => h ((exists_positional?_tree_iff items).mp ⟨schema, hschema⟩)
    rw [Json.tree, ofTree?, hnone]
    exact hloose
  | _ => exact hloose

end Node

/-! ### Declarations -/

/-- A property of which nothing is known. -/
structure PropertyDescriptor.IsUnknown (property : PropertyDescriptor) : Prop where
  /-- Its type is not known. -/
  type : property.type = .unknown
  /-- Its documented type is empty. -/
  docType : property.docType = ""
  /-- So is that of the method that replaces it. -/
  setter_docType : property.setter.docType = ""
  /-- That method accepts anything. -/
  hint : property.setter.hint = none
  /-- There is no method that adds an element. -/
  adder : property.adder = none
  /-- It starts without a value. -/
  default : property.default = none
  /-- It is not described. -/
  description : property.description = none

/-- A property of which nothing is known compiles, whatever the types. -/
theorem PropertyDescriptor.exists_compile_unknown (types : TypeMap) (settings : Settings)
    (name : String) (required : Bool) :
    ∃ property, compile types settings ⟨name, .unknown, none⟩ required = .ok property ∧
      property.name = name ∧ property.required = required ∧ property.IsUnknown := by
  cases required <;> exact ⟨_, rfl, rfl, rfl, ⟨rfl, rfl, rfl, rfl, rfl, rfl, rfl⟩⟩

/-- A property of which nothing is known has no fault. -/
theorem PropertySpec.faults_unknown (definitions : List Definition) (required : List String)
    (name : String) : PropertySpec.faults definitions required ⟨name, .unknown, none⟩ = [] := by
  simp [faults, defaultFaults, DeclaredType.reference?, DeclaredType.primitive?]

namespace Definition

/-- A definition without the properties of a name. -/
def without (definition : Definition) (name : String) : Definition :=
  { definition with properties := definition.properties.filter (·.name ≠ name) }

/-- Definitions of which those with an identifier have lost the properties of a name. -/
def leaveOut (id name : String) (definitions : List Definition) : List Definition :=
  definitions.map fun definition => if definition.id = id then definition.without name else definition

theorem agree_leaveOut (id name : String) (definitions : List Definition) :
    Agree definitions (leaveOut id name definitions) := by
  rw [Agree, leaveOut, List.map_map]
  refine List.map_congr_left fun definition _ => ?_
  simp only [Function.comp_apply]
  split <;> rfl

/-- Leaving out what adds nothing. -/
theorem flatMap_filter_of_eq_nil {α β : Type} {f : α → List β} {kept : α → Bool} {xs : List α}
    (h : ∀ x ∈ xs, kept x = false → f x = []) : (xs.filter kept).flatMap f = xs.flatMap f := by
  induction xs with
  | nil => rfl
  | cons x xs ih =>
    obtain ⟨hx, hxs⟩ := List.forall_mem_cons.mp h
    cases hkept : kept x with
    | true => rw [List.filter_cons_of_pos hkept, List.flatMap_cons, List.flatMap_cons, ih hxs]
    | false =>
      rw [List.filter_cons_of_neg (by simp [hkept]), ih hxs, List.flatMap_cons, hx hkept,
        List.nil_append]

/-- Leaving out a property of which nothing is known leaves the faults of a definition. -/
theorem faults_without {definitions : List Definition} {definition : Definition} {name : String}
    (h : ∀ spec ∈ definition.properties, spec.name = name → spec = ⟨name, .unknown, none⟩) :
    (definition.without name).faults definitions = definition.faults definitions := by
  rw [faults, faults, without]
  congr 1
  refine flatMap_filter_of_eq_nil fun spec hspec hname => ?_
  rw [h spec hspec (by simpa using hname), PropertySpec.faults_unknown]

/-- A run has the same fault when properties of which nothing is known are left out. -/
theorem fault?_run_leaveOut {definitions : List Definition} {id name : String}
    (h : ∀ definition ∈ definitions, definition.id = id → ∀ spec ∈ definition.properties,
      spec.name = name → spec = ⟨name, .unknown, none⟩) (settings : Settings) :
    fault? (Generation.ofDefinitions settings (leaveOut id name definitions)) =
      fault? (Generation.ofDefinitions settings definitions) := by
  have hstep : ∀ definition ∈ definitions.filter (·.isObject),
      (if definition.id = id then definition.without name else definition).faults definitions =
        definition.faults definitions := by
    intro definition hdefinition
    split
    next hid => exact faults_without (h definition (List.mem_of_mem_filter hdefinition) hid)
    next => rfl
  have hobject : ∀ definition : Definition,
      (if definition.id = id then definition.without name else definition).isObject =
        definition.isObject := fun definition => by
    split <;> rfl
  rw [fault?_run, fault?_run, faults_congr (agree_leaveOut id name definitions), leaveOut,
    List.filter_map, List.flatMap_map]
  simp only [Function.comp_def, hobject]
  rw [List.flatMap_congr hstep]

theorem properties_ofSchema (id : String) {schema : Schema} (hallOf : schema.allOf = none) :
    (ofSchema id schema).properties =
      (schema.properties.getD []).map fun entry => .ofNode entry.1 entry.2 := by
  simp [ofSchema, bodyOf, hallOf]

/-- The property of a definition without a composition that a node gives. -/
theorem find?_properties_ofSchema {schema : Schema} {name : String} {node : Node} (id : String)
    (hallOf : schema.allOf = none) (hnode : schema.child? (.property name) = some node) :
    (ofSchema id schema).properties.find? (·.name = name) = some (.ofNode name node) := by
  obtain ⟨entries, hentries, hlookup⟩ := Option.bind_eq_some_iff.mp hnode
  have hfind := Table.lookup_map_keyed Prod.fst Prod.snd entries name
  rw [List.map_id', hlookup, eq_comm, Option.map_eq_some_iff] at hfind
  obtain ⟨entry, hentry, rfl⟩ := hfind
  have hname : entry.1 = name := by simpa using List.find?_some hentry
  rw [properties_ofSchema id hallOf, hentries, Option.getD_some, List.find?_map]
  simp only [Function.comp_def, PropertySpec.ofNode]
  rw [hentry, Option.map_some, hname]

/-- It is the only one with its name. -/
theorem eq_ofNode_of_mem_properties {schema : Schema} {name : String} {node : Node} {id : String}
    (hallOf : schema.allOf = none) (hnode : schema.child? (.property name) = some node)
    (distinct : ((schema.properties.getD []).map Prod.fst).Nodup) {spec : PropertySpec}
    (hspec : spec ∈ (ofSchema id schema).properties) (hname : spec.name = name) :
    spec = .ofNode name node := by
  obtain ⟨entries, hentries, hlookup⟩ := Option.bind_eq_some_iff.mp hnode
  rw [properties_ofSchema id hallOf, hentries] at hspec
  rw [hentries] at distinct
  obtain ⟨⟨other, node'⟩, hmem, rfl⟩ := List.mem_map.mp hspec
  obtain rfl : other = name := hname
  have hget : (⟨entries, distinct⟩ : Table Node).get? other = some node' :=
    (Table.get?_eq_some_iff _ _ _).mpr hmem
  obtain rfl := Option.some.inj (hget.symm.trans hlookup)
  rfl

/-- As the first part of a composition a node that is kept links no parent. -/
theorem parent_of_loose {schema : Schema} {value : Json} (id : String)
    (h : schema.child? (.part 0) = some (.loose value)) : (ofSchema id schema).parent = none := by
  obtain ⟨parts, hparts, hpart⟩ := Option.bind_eq_some_iff.mp h
  simp [ofSchema, parentOf, parentOfParts, hparts, List.head?_eq_getElem?, hpart, Node.schema?]

/-- As the second part of a composition a node that is kept gives no properties and requires none. -/
theorem body_of_loose {schema : Schema} {value : Json} (id : String)
    (h : schema.child? (.part 1) = some (.loose value)) :
    (ofSchema id schema).required = [] ∧ (ofSchema id schema).properties = [] := by
  obtain ⟨parts, hparts, hpart⟩ := Option.bind_eq_some_iff.mp h
  simp [ofSchema, bodyOf, hparts, hpart, Node.schema?]

end Definition

/-- A property of which nothing is known in the model of its definition. -/
theorem Model.exists_property_of_unknown {types : TypeMap} {settings : Settings}
    {definition : Definition} {model : Model} {name : String}
    (h : Model.compile types settings definition = .ok model)
    (hspec : definition.properties.find? (·.name = name) = some ⟨name, .unknown, none⟩) :
    ∃ property, model.property? name = some property ∧
      property.required = definition.isRequired name ∧ property.IsUnknown := by
  obtain ⟨_, properties, -, hproperties, rfl⟩ := Model.compile_eq_ok_iff.mp h
  rw [PropertyDescriptor.compileAll_eq_mapM] at hproperties
  obtain ⟨property, hcompile, -, hrequired, hunknown⟩ :=
    PropertyDescriptor.exists_compile_unknown types settings name (definition.isRequired name)
  refine ⟨property, ?_, hrequired, hunknown⟩
  refine (find?_mapM (·.name = name) (·.name = name) hproperties (fun spec property h => ?_)
    property).mpr ⟨_, hspec, hcompile⟩
  rw [PropertyDescriptor.name_of_compile h]

/-! ### Documents -/

/-- Whether a step leads to a property or a part of a composition. -/
def Step.ToNode : Step → Prop
  | .property _ | .part _ => True
  | .element | .place _ => False

/-- What stands where a node is wanted is kept, or read as a schema, as its value tells. -/
theorem child?_of_not_object {schema : Schema} {tree : Tree} (h : Nests schema tree) {step : Step}
    (hstep : step.ToNode) {value : Json} (hvalue : tree.child? step = some value.tree)
    (regular : value.Regular) (hobject : ∀ entries, value ≠ .object entries) :
    (schema.child? step = some (.loose value) ↔ ¬ value.Positional) ∧
      (value.Positional → ∃ inner, schema.child? step = some (.schema inner)) := by
  obtain ⟨node, hnode, hread⟩ : ∃ node, schema.child? step = some node ∧
      Node.ofTree? value.tree = some node := by
    cases step with
    | property name => exact h.exists_property hvalue
    | part i => exact h.exists_part hvalue
    | element | place => exact hstep.elim
  have hschema : value.Positional → ∃ inner, schema.child? step = some (.schema inner) := by
    intro hpositional
    obtain ⟨inner, hinner⟩ := Node.exists_ofTree?_of_positional hpositional
    exact ⟨inner, by rw [hnode, ← hread, hinner]⟩
  refine ⟨⟨fun hloose hpositional => ?_, fun hnot => ?_⟩, hschema⟩
  · obtain ⟨inner, hinner⟩ := hschema hpositional
    rw [hloose] at hinner
    cases hinner
  · rw [hnode, ← hread, Node.ofTree?_of_not_positional regular hobject hnot]

/-- **Nodes that are no maps.** A value that is no object and stands as a property or a part of a
composition, at any depth, is kept unless it gives the fields of a schema in order, and then it is read
as a schema. A kept property of an object without a composition is of unknown type, compiles to a
property of which nothing is known, and a run fails as it would without it. A kept part gives neither
a parent nor properties nor required names. -/
theorem nodes_loose_unless_positional {source : String} {document : Document} {id : String}
    {tree : Tree} (h : Document.parse .json source = .ok document)
    (hdefinition : (Tree.ofJson source).definition? id = some tree) :
    ∃ schema, document.definitions.get? id = some schema ∧
      (∀ steps enclosing place step value, schema.at? steps = some enclosing →
        tree.at? steps = some place → Step.ToNode step → place.child? step = some value.tree →
        value.Regular → (∀ entries, value ≠ .object entries) →
        (enclosing.child? step = some (.loose value) ↔ ¬ value.Positional) ∧
          (value.Positional → ∃ inner, enclosing.child? step = some (.schema inner))) ∧
      (∀ name value, tree.child? (.property name) = some value.tree →
        schema.child? (.property name) = some (.loose value) →
        schema.allOf = none → (Definition.ofSchema id schema).isObject →
        (Definition.ofSchema id schema).properties.find? (·.name = name) =
          some ⟨name, .unknown, none⟩ ∧
        ∀ settings,
          (∀ generation, Generation.ofDocument settings document = .ok generation →
            ∃ model property, Model.compile generation.types settings (.ofSchema id schema) = .ok model ∧
              model.property? name = some property ∧
              property.required = (Definition.ofSchema id schema).isRequired name ∧
              property.IsUnknown) ∧
          ∀ fault, Generation.ofDocument settings document = .error fault ↔
            Generation.ofDefinitions settings (Definition.leaveOut id name document.toDefinitions) =
              .error fault) ∧
      (∀ value, schema.child? (.part 0) = some (.loose value) →
        (Definition.ofSchema id schema).parent = none) ∧
      ∀ value, schema.child? (.part 1) = some (.loose value) →
        (Definition.ofSchema id schema).required = [] ∧
          (Definition.ofSchema id schema).properties = [] := by
  obtain ⟨schema, room, hget, hdecode⟩ :=
    exists_decodeSchema ((Document.parse_eq_ok_iff rfl).mp h) hdefinition
  have hnests : Nests schema tree := nests_of_decodeSchema hdecode
  refine ⟨schema, hget, fun steps enclosing place step value hschema hplace hstep hvalue =>
      child?_of_not_object (nests_of_at? hnests hschema hplace) hstep hvalue,
    fun name value hvalue hloose hallOf hobject => ?_, fun _ => Definition.parent_of_loose id,
    fun _ => Definition.body_of_loose id⟩
  have hmem : Definition.ofSchema id schema ∈ document.toDefinitions :=
    List.mem_map.mpr ⟨(id, schema), (Table.get?_eq_some_iff _ _ _).mp hget, rfl⟩
  have hspec := Definition.find?_properties_ofSchema id hallOf hloose
  refine ⟨hspec, fun settings => ⟨fun generation hrun => ?_, fun fault => ?_⟩⟩
  · obtain ⟨models, hmodels, rfl⟩ := Generation.ofDefinitions_eq_ok_iff.mp hrun
    obtain ⟨model, -, hcompile⟩ := exists_of_mapM hmodels (List.mem_filter.mpr ⟨hmem, hobject⟩)
    obtain ⟨property, hproperty⟩ := Model.exists_property_of_unknown hcompile hspec
    exact ⟨model, property, hcompile, hproperty⟩
  · rw [Generation.ofDocument, ← fault?_eq_some_iff, ← fault?_eq_some_iff,
      Definition.fault?_run_leaveOut]
    rintro definition hdefinition' rfl
    -- identifiers are distinct, so this is the definition of the schema
    obtain ⟨⟨id', schema'⟩, hentry, rfl⟩ := List.mem_map.mp hdefinition'
    obtain rfl := Option.some.inj (hget.symm.trans ((Table.get?_eq_some_iff _ _ _).mpr hentry))
    exact fun spec => Definition.eq_ofNode_of_mem_properties hallOf hloose
      (hnests.nodup_properties hvalue)

/-- An array that is no schema. -/
def flags : Json :=
  .list [.bool true]

/-- An array that gives a type as the second of the eight fields. -/
def row : Json :=
  .list [.null, .text "string", .null, .null, .null, .null, .null, .null]

/-- A definition with the two as properties. -/
def ledger : Json :=
  .object [("type", .text "object"), ("properties", .object [("flags", flags), ("row", row)])]

/-- A document with this definition. -/
def ledgerDocument : Json :=
  .object [("definitions", .object [("ledger", ledger)])]

/-- Its text. -/
def ledgerText : String :=
  "\x7b\"definitions\":\x7b\"ledger\":\x7b\"type\":\"object\",\"properties\":\x7b\"flags\":[true]," ++
    "\"row\":[null,\"string\",null,null,null,null,null,null]\x7d\x7d\x7d\x7d"

theorem ofJson_ledgerText : Tree.ofJson ledgerText = ledgerDocument.tree := by
  cbv

theorem definition?_ledgerText : (Tree.ofJson ledgerText).definition? "ledger" = some ledger.tree := by
  rw [ofJson_ledgerText]
  rfl

theorem exists_parse_ledgerText : ∃ document, Document.parse .json ledgerText = .ok document := by
  have hread : (Document.decode .json ledgerDocument.tree).toOption.isSome = true := by
    decide +kernel
  rw [← Document.toOption_parse ofJson_ledgerText] at hread
  cases hparse : Document.parse .json ledgerText with
  | error fault => simp [hparse, Except.toOption] at hread
  | ok document => exact ⟨document, rfl⟩

/-- The array that is no schema is kept. -/
theorem flags_loose : ∃ document schema, Document.parse .json ledgerText = .ok document ∧
    document.definitions.get? "ledger" = some schema ∧
    schema.child? (.property "flags") = some (.loose flags) := by
  obtain ⟨document, hparse⟩ := exists_parse_ledgerText
  obtain ⟨schema, hget, hread, -⟩ := nodes_loose_unless_positional hparse definition?_ledgerText
  have hvalue : ledger.tree.child? (.property "flags") = some flags.tree := rfl
  have hnot : ¬ flags.Positional := by
    rintro ⟨items, heq, hitems⟩
    cases heq
    exact absurd hitems.length_eq (by decide)
  exact ⟨document, schema, hparse, hget,
    (hread [] schema ledger.tree (.property "flags") flags rfl rfl trivial hvalue
      (by simp [flags]) (by simp [flags])).1.mpr hnot⟩

/-- The other array is read as a schema, so that the property has a type. -/
theorem row_not_loose : ∃ document schema, Document.parse .json ledgerText = .ok document ∧
    document.definitions.get? "ledger" = some schema ∧
    ((Tree.ofJson ledgerText).definition? "ledger").bind (·.child? (.property "row")) = some row.tree ∧
    (∀ entries, row ≠ .object entries) ∧ schema.child? (.property "row") ≠ some (.loose row) ∧
    (schema.child? (.property "row")).map DeclaredType.ofNode = some (.primitive "string") := by
  obtain ⟨document, hparse⟩ := exists_parse_ledgerText
  have htype : ((Document.decode .json ledgerDocument.tree).toOption.bind fun document =>
      (document.definitions.get? "ledger").bind fun schema =>
        (schema.child? (.property "row")).map DeclaredType.ofNode) = some (.primitive "string") := by
    decide +kernel
  rw [(Document.parse_eq_ok_iff ofJson_ledgerText).mp hparse] at htype
  obtain ⟨schema, hget, htype⟩ := Option.bind_eq_some_iff.mp (Option.bind_some _ _ ▸ htype)
  refine ⟨document, schema, hparse, hget, ?_, by simp [row], fun hloose => ?_, htype⟩
  · rw [definition?_ledgerText]
    rfl
  · rw [hloose] at htype
    cases htype

end SchemaCompiler
