import SchemaCompiler.Emission.Emitter
import SchemaCompiler.Proofs.Compilation
import SchemaCompiler.Proofs.ReadBack

/-!
# Descriptors lose nothing

The descriptor of a model determines the model (`descriptor_injective`): every part of it is written
as a JSON value from which it can be told, and an entry that is left out is told by its key. The text of
the descriptor of a generated model is read back whole (`faithful_descriptor`), because the only
numbers in it are zeros. So the texts of two different generated models differ
(`emitted_descriptors`), whatever is in their names, keywords and descriptions.
-/

namespace SchemaCompiler

/-- A model of a successful run over some definitions under some settings. -/
def Model.Generated (model : Model) : Prop :=
  ∃ settings definitions generation,
    Generation.ofDefinitions settings definitions = .ok generation ∧ model ∈ generation.models.values

/-! ### Entries that may be absent -/

section Entries

variable {α : Type} {key : String} {toJson : α → Json}

@[simp] theorem mem_keys_optionalEntry {other : String} {value : Option α} :
    other ∈ (optionalEntry key toJson value).map Prod.fst ↔ other = key ∧ value.isSome := by
  cases value <;> simp [optionalEntry]

theorem forall_mem_optionalEntry {P : String × Json → Prop} {value : Option α} :
    (∀ entry ∈ optionalEntry key toJson value, P entry) ↔ ∀ a ∈ value, P (key, toJson a) := by
  cases value <;> simp [optionalEntry]

theorem nodup_keys_optionalEntry (value : Option α) :
    ((optionalEntry key toJson value).map Prod.fst).Nodup := by
  cases value <;> simp [optionalEntry]

/-- When no entry behind has its key, an entry that may be absent can be told. -/
theorem optionalEntry_append_inj (hinj : Function.Injective toJson) {value other : Option α}
    {rest later : List (String × Json)} (hrest : key ∉ rest.map Prod.fst)
    (hlater : key ∉ later.map Prod.fst)
    (h : optionalEntry key toJson value ++ rest = optionalEntry key toJson other ++ later) :
    value = other ∧ rest = later := by
  cases value with
  | none =>
    cases other with
    | none => exact ⟨rfl, h⟩
    | some b =>
      obtain rfl : rest = (key, toJson b) :: later := h
      simp at hrest
  | some a =>
    cases other with
    | none =>
      obtain rfl : (key, toJson a) :: rest = later := h
      simp at hlater
    | some b =>
      obtain ⟨⟨-, hvalue⟩, hbehind⟩ : (key = key ∧ toJson a = toJson b) ∧ rest = later := by
        simpa [optionalEntry] using h
      exact ⟨congrArg some (hinj hvalue), hbehind⟩

theorem optionalEntry_injective (hinj : Function.Injective toJson) :
    Function.Injective (optionalEntry key toJson) := by
  intro value other h
  have happend : optionalEntry key toJson value ++ [] = optionalEntry key toJson other ++ [] := by
    rw [h]
  exact (optionalEntry_append_inj hinj List.not_mem_nil List.not_mem_nil happend).1

/-- A value that is never `null` can be told from none. -/
theorem nullable_injective (hinj : Function.Injective toJson) (hnull : ∀ a, toJson a ≠ .null) :
    Function.Injective (nullable toJson) := by
  intro value other h
  cases value with
  | none => cases other with
    | none => rfl
    | some b => exact absurd h.symm (hnull b)
  | some a => cases other with
    | none => exact absurd h (hnull a)
    | some b => exact congrArg some (hinj h)

end Entries

/-! ### Telling the parts -/

theorem TypeRef.toJson_injective : Function.Injective toJson := by
  intro ref other h
  cases ref
  cases other
  simpa [toJson] using h

theorem TypeRef.toJson_ne_null (ref : TypeRef) : ref.toJson ≠ .null := nofun

theorem FieldType.toJson_injective : Function.Injective toJson := by
  intro type
  induction type with
  | primitive keyword => intro other h; cases other <;> simp_all [toJson]
  | model ref =>
    intro other h
    cases other <;> simp [toJson] at h
    rw [TypeRef.toJson_injective h]
  | collection element ih =>
    intro other h
    cases other <;> simp [toJson] at h
    rw [ih h]
  | mixed => intro other h; cases other <;> simp_all [toJson]
  | unknown => intro other h; cases other <;> simp_all [toJson]

theorem Default.toJson_injective : Function.Injective toJson := by
  intro default other h
  cases default <;> cases other <;> simp_all [toJson]

theorem Default.toJson_ne_null (default : Default) : default.toJson ≠ .null := by
  cases default <;> nofun

theorem Method.toJson_injective : Function.Injective toJson := by
  rintro ⟨name, parameter, docType, hint⟩ ⟨name', parameter', docType', hint'⟩ h
  simp only [toJson, Json.object.injEq, List.cons_append, List.nil_append, List.cons.injEq,
    Prod.mk.injEq, Json.text.injEq, true_and] at h
  obtain ⟨rfl, rfl, rfl, hhint⟩ := h
  rw [optionalEntry_injective TypeRef.toJson_injective hhint]

theorem PropertyDescriptor.toJson_injective : Function.Injective toJson := by
  rintro ⟨name, type, docType, required, default, description, getter, setter, adder⟩
    ⟨name', type', docType', required', default', description', getter', setter', adder'⟩ h
  simp only [toJson, Json.object.injEq, List.cons_append, List.nil_append, List.cons.injEq,
    List.append_assoc, Prod.mk.injEq, Json.text.injEq, Json.bool.injEq, true_and] at h
  obtain ⟨rfl, htype, rfl, rfl, hdefault, h⟩ := h
  obtain ⟨rfl, hmethods⟩ := optionalEntry_append_inj (fun _ _ => Json.text.inj) (by simp) (by simp) h
  simp only [List.cons.injEq, Prod.mk.injEq, Json.text.injEq, true_and] at hmethods
  obtain ⟨rfl, hsetter, hadder⟩ := hmethods
  rw [FieldType.toJson_injective htype, Method.toJson_injective hsetter,
    nullable_injective Default.toJson_injective Default.toJson_ne_null hdefault,
    optionalEntry_injective Method.toJson_injective hadder]

/-- A descriptor determines its model, whatever the settings. -/
theorem Model.descriptor_injective (settings : Settings) : Function.Injective (descriptor settings) := by
  rintro ⟨name, scope, parent, description, properties⟩
    ⟨name', scope', parent', description', properties'⟩ h
  simp only [descriptor, toEntries, Json.object.injEq, List.cons_append, List.nil_append,
    List.cons.injEq, List.append_assoc, Prod.mk.injEq, Json.text.injEq, true_and] at h
  obtain ⟨rfl, rfl, hparent, h⟩ := h
  obtain rfl := nullable_injective TypeRef.toJson_injective TypeRef.toJson_ne_null hparent
  -- with the same parent, the entry for the base type is there on both sides or on neither
  obtain ⟨rfl, hproperties⟩ := optionalEntry_append_inj (fun _ _ => Json.text.inj)
    (by split_ifs <;> simp) (by split_ifs <;> simp) h
  simp only [List.cons.injEq, Prod.mk.injEq, Json.list.injEq, true_and, and_true] at hproperties
  rw [List.map_injective_iff.mpr PropertyDescriptor.toJson_injective hproperties]

/-! ### Defaults of generated models -/

/-- Whether a default is the value with which some keyword starts. -/
def Default.IsZero (default : Default) : Prop :=
  ∃ keyword, ofKeyword? keyword = some default

theorem Default.isZero_of_ofType? {type : FieldType} {default : Default}
    (h : ofType? type = .ok (some default)) : default.IsZero := by
  cases type with
  | collection element =>
    cases h
    exact ⟨"array", rfl⟩
  | primitive keyword =>
    obtain ⟨zero, hzero, heq⟩ := ofType?_primitive_eq_ok_iff.mp h
    exact ⟨keyword, hzero.trans heq⟩
  | _ => cases h

/-- No property of a model starts with anything but a zero value. -/
def Model.StartsAtZero (model : Model) : Prop :=
  ∀ property ∈ model.properties, ∀ default ∈ property.default, default.IsZero

theorem PropertyDescriptor.isZero_of_compile {types : TypeMap} {settings : Settings}
    {spec : PropertySpec} {required : Bool} {property : PropertyDescriptor}
    (h : compile types settings spec required = .ok property) :
    ∀ default ∈ property.default, default.IsZero := by
  obtain ⟨type, start, -, hstart, rfl⟩ := compile_eq_ok_iff.mp h
  intro default hdefault
  obtain rfl : start = some default := hdefault
  obtain ⟨-, hnone⟩ | ⟨-, htype⟩ := defaultOf_eq_ok_iff.mp hstart
  · cases hnone
  · exact Default.isZero_of_ofType? htype

theorem Model.Generated.startsAtZero {model : Model} (h : model.Generated) : model.StartsAtZero := by
  obtain ⟨settings, definitions, generation, hrun, hmodel⟩ := h
  intro property hproperty
  obtain ⟨definition, -, spec, -, hspec⟩ :=
    Generation.exists_compile_of_mem_properties hrun hmodel hproperty
  exact PropertyDescriptor.isZero_of_compile hspec

/-! ### What is in a descriptor -/

namespace Json

/-- A value whose text is read back, and in which no key stands twice and every number is finite. -/
structure Faithful (value : Json) : Prop where
  /-- Its text is read back. -/
  restored : value.Restored
  /-- Its keys are distinct and its numbers finite. -/
  regular : value.Regular

@[simp] theorem faithful_null : null.Faithful :=
  ⟨.null, .null⟩

@[simp] theorem faithful_bool (b : Bool) : (bool b).Faithful :=
  ⟨.bool b, .bool b⟩

@[simp] theorem faithful_text (s : String) : (text s).Faithful :=
  ⟨.text s, .text s⟩

theorem Faithful.list {items : List Json} (h : ∀ item ∈ items, item.Faithful) :
    (Json.list items).Faithful :=
  ⟨.list fun item hitem => (h item hitem).restored, .list fun item hitem => (h item hitem).regular⟩

theorem Faithful.object {entries : List (String × Json)} (distinct : (entries.map Prod.fst).Nodup)
    (h : ∀ entry ∈ entries, entry.2.Faithful) : (Json.object entries).Faithful :=
  ⟨.object fun entry hentry => (h entry hentry).restored,
    .object distinct fun entry hentry => (h entry hentry).regular⟩

end Json

theorem faithful_nullable {α : Type} {toJson : α → Json} {value : Option α}
    (h : ∀ a ∈ value, (toJson a).Faithful) : (nullable toJson value).Faithful := by
  cases value with
  | none => exact Json.faithful_null
  | some a => exact h a rfl

@[simp] theorem TypeRef.faithful_toJson (ref : TypeRef) : ref.toJson.Faithful :=
  .object (by simp) (by simp)

@[simp] theorem FieldType.faithful_toJson (type : FieldType) : type.toJson.Faithful := by
  induction type with
  | primitive | model | mixed | unknown => exact .object (by simp) (by simp)
  | collection element ih => exact .object (by simp) (by simpa using ih)

@[simp] theorem Method.faithful_toJson (method : Method) : method.toJson.Faithful := by
  refine .object ?_ ?_
  · simp [nodup_keys_optionalEntry]
  · simp only [List.forall_mem_append, List.forall_mem_cons, forall_mem_optionalEntry]
    simp

theorem Default.IsZero.faithful {default : Default} (h : default.IsZero) : default.toJson.Faithful := by
  obtain ⟨keyword, hkeyword⟩ := h
  rw [ofKeyword?.eq_def] at hkeyword
  split at hkeyword <;> cases hkeyword
  · exact .list nofun
  · exact Json.faithful_text _
  · exact ⟨.number Number.restored_integer_zero, .number trivial⟩
  · have hfinite : (0.0 : Float).isFinite = true := by decide +kernel
    exact ⟨.number Number.restored_float_zero, .number hfinite⟩
  · exact Json.faithful_bool _

theorem PropertyDescriptor.faithful_toJson {property : PropertyDescriptor}
    (h : ∀ default ∈ property.default, default.IsZero) : property.toJson.Faithful := by
  have hdefault := faithful_nullable fun default hmem => (h default hmem).faithful
  refine .object ?_ ?_
  · simp [List.nodup_append, nodup_keys_optionalEntry]
  · simp only [List.forall_mem_append, List.forall_mem_cons, forall_mem_optionalEntry]
    simp [hdefault]

theorem Model.faithful_descriptor (settings : Settings) {model : Model} (h : model.StartsAtZero) :
    (model.descriptor settings).Faithful := by
  have hparent : (nullable TypeRef.toJson model.parent).Faithful :=
    faithful_nullable fun ref _ => ref.faithful_toJson
  have hproperties : (Json.list (model.properties.map PropertyDescriptor.toJson)).Faithful := by
    refine .list ?_
    rw [List.forall_mem_map]
    exact fun property hproperty => PropertyDescriptor.faithful_toJson (h property hproperty)
  refine .object ?_ ?_
  · split_ifs <;> simp [toEntries, List.nodup_append, nodup_keys_optionalEntry]
  · rw [toEntries]
    simp only [List.forall_mem_append, List.forall_mem_cons, forall_mem_optionalEntry]
    split_ifs <;> simp [hparent, hproperties, Settings.baseRef]

/-- The entries of the descriptor of a model: the base type is named in it exactly when the parent is
`null`, which it is exactly when there is none. -/
theorem Model.exists_entries_descriptor (settings : Settings) (model : Model) :
    ∃ entries, model.descriptor settings = .object entries ∧
      ("extends" ∈ entries.map Prod.fst ↔ ("parent", Json.null) ∈ entries) ∧
      (("parent", Json.null) ∈ entries ↔ model.parent = none) := by
  have hdescription : ("parent", Json.null) ∉ optionalEntry "description" Json.text model.description := by
    cases model.description <;> simp [optionalEntry]
  refine ⟨_, rfl, ?_⟩
  cases hparent : model.parent with
  | none => simp [toEntries, hparent, nullable]
  | some ref => simp [toEntries, hparent, nullable, TypeRef.toJson, hdescription]

/-- **Descriptors.** The text of the descriptor of a generated model is a JSON object and nothing else, in
which no key stands twice at any depth. It has the key `extends` exactly when its parent is `null`, which
is when the model has none. Two generated models with the same text are the same, under any settings with
which they were made and are written. -/
theorem emitted_descriptors (settings : Settings) {model other : Model} (h : model.Generated)
    (hother : other.Generated) :
    (∃ text, Emitter.json.emitModel settings model = .ok text ∧ ∃ entries,
      Json.read text.toList = ((Json.object entries).tree, some []) ∧ (Json.object entries).Regular ∧
      ("extends" ∈ entries.map Prod.fst ↔ ("parent", Json.null) ∈ entries) ∧
      (("parent", Json.null) ∈ entries ↔ model.parent = none)) ∧
    (Emitter.json.emitModel settings model = Emitter.json.emitModel settings other →
      model = other) := by
  have hfaithful := model.faithful_descriptor settings h.startsAtZero
  have hfaithful' := other.faithful_descriptor settings hother.startsAtZero
  constructor
  · obtain ⟨entries, hentries, hextends⟩ := model.exists_entries_descriptor settings
    rw [hentries] at hfaithful
    refine ⟨_, rfl, entries, ?_, hfaithful.regular, hextends⟩
    rw [hentries]
    exact Json.read_pretty hfaithful.restored
  · intro heq
    exact Model.descriptor_injective settings
      (Json.eq_of_pretty_eq hfaithful.restored hfaithful'.restored (Except.ok.inj heq))

/-- A note whose texts need escapes. -/
def note (description : String) : Definition where
  id := "note"
  kind := .object
  description
  properties :=
    [⟨"\"tags\"", .arrayOf (.primitive "\\"), some "\x01\t"⟩, ⟨"size", .primitive "number", none⟩]

/-- A line break and the two characters that stand for it in a text make different descriptors. -/
theorem notes_told_apart : ∃ model other : Model, model.Generated ∧ other.Generated ∧
    model.name = other.name ∧ model.description = some "a\nb" ∧ other.description = some "a\\nb" ∧
    Emitter.json.emitModel {} model ≠ Emitter.json.emitModel {} other := by
  obtain ⟨generation, model, hrun, hmodel, hname, hdescription⟩ : ∃ generation model,
      Generation.ofDefinitions {} [note "a\nb"] = .ok generation ∧
      model ∈ generation.models.values ∧ model.name = "Note" ∧ model.description = some "a\nb" :=
    ⟨_, _, rfl, List.mem_singleton.mpr rfl, by decide +kernel, by decide +kernel⟩
  obtain ⟨generation', other, hrun', hother, hname', hdescription'⟩ : ∃ generation model,
      Generation.ofDefinitions {} [note "a\\nb"] = .ok generation ∧
      model ∈ generation.models.values ∧ model.name = "Note" ∧ model.description = some "a\\nb" :=
    ⟨_, _, rfl, List.mem_singleton.mpr rfl, by decide +kernel, by decide +kernel⟩
  have hmade : model.Generated := ⟨_, _, generation, hrun, hmodel⟩
  have hmade' : other.Generated := ⟨_, _, generation', hrun', hother⟩
  refine ⟨model, other, hmade, hmade', by rw [hname, hname'], hdescription, hdescription', fun heq => ?_⟩
  have hsame := (emitted_descriptors {} hmade hmade').2 heq
  rw [hsame, hdescription'] at hdescription
  revert hdescription
  decide

end SchemaCompiler
