import SchemaCompiler.Proofs.Compilation
import SchemaCompiler.Proofs.Pieces
import SchemaCompiler.Proofs.Stem

/-!
# Accessors of distinct properties

The stem of a name drops the separators, and nothing checks that two properties of a model have different
stems. For names in snake case there is nothing to check. Where a separator was, the stem has a capital, and
a snake-case name has no other capitals, so it can be read back from its stem.

## What is proved

* `stemOf_eq_flatMap_splitOnP` — the stem of a name is that of its segments, one after the other. So
  separators at either end of a name do nothing, and several in a row do no more than one.
* `flatMap_unraise_stemOf` — the stem of a snake-case name, with its capitals undone, is the name behind
  one separator.
* `accessors_distinct` — so in every run the getters and setters of a model with distinct snake-case
  properties are all different.
-/

namespace SchemaCompiler.Name

open Text

/-! ### Separators -/

/-- Whether a text holds nothing but separators. It may be empty. -/
def IsGap (gap : String) : Prop :=
  ∀ c ∈ gap.toList, isSeparator c = true

instance (gap : String) : Decidable (IsGap gap) :=
  List.decidableBAll _ gap.toList

theorem stemOf_gap_append {gap : List Char} (h : ∀ c ∈ gap, isSeparator c = true) (name : List Char) :
    stemOf (gap ++ name) = stemOf name := by
  induction gap with
  | nil => rfl
  | cons c gap ih =>
    rw [List.forall_mem_cons] at h
    exact (stemOf_append_of_separator h.1 [] (gap ++ name)).trans (ih h.2)

theorem stemOf_append_gap {gap : List Char} (h : ∀ c ∈ gap, isSeparator c = true) (name : List Char) :
    stemOf (name ++ gap) = stemOf name := by
  cases gap with
  | nil => rw [List.append_nil]
  | cons c gap =>
    rw [List.forall_mem_cons] at h
    have hgap := stemOf_gap_append h.2 []
    rw [List.append_nil, stemOf_nil] at hgap
    rw [stemOf_append_of_separator h.1, hgap, List.append_nil]

/-- The stem of a name is that of its segments, one after the other. -/
theorem stemOf_eq_flatMap_splitOnP {separates : Char → Bool}
    (h : ∀ c, separates c = true → isSeparator c = true) (name : List Char) :
    stemOf name = (name.splitOnP separates).flatMap stemOf :=
  Pieces.eq_flatMap_splitOnP (fun front c back hc => stemOf_append_of_separator (h c hc) front back)
    (fun _ _ => rfl) name

theorem accessorStem_append_of_separator {c : Char} (hc : isSeparator c = true) (front back : String) :
    accessorStem (front ++ .singleton c ++ back) = accessorStem front ++ accessorStem back := by
  simp [accessorStem_eq, stemOf_append_of_separator hc]

theorem accessorStem_gap_append {gap : String} (h : IsGap gap) (name : String) :
    accessorStem (gap ++ name) = accessorStem name := by
  rw [accessorStem_eq, String.toList_append, stemOf_gap_append h, accessorStem_eq]

theorem accessorStem_append_gap {gap : String} (h : IsGap gap) (name : String) :
    accessorStem (name ++ gap) = accessorStem name := by
  rw [accessorStem_eq, String.toList_append, stemOf_append_gap h, accessorStem_eq]

/-! ### Snake case -/

/-- Whether a text is a segment of a snake-case name: a lower-case letter, and behind it lower-case letters
and digits. -/
def IsSegment : List Char → Prop
  | [] => False
  | c :: rest => c.isLower ∧ ∀ d ∈ rest, d.isLower ∨ d.isDigit

instance : (segment : List Char) → Decidable (IsSegment segment)
  | [] => inferInstanceAs (Decidable False)
  | _ :: rest => @instDecidableAnd _ _ _ (List.decidableBAll _ rest)

/-- Whether a name is in snake case: segments with one underscore between each and the next. -/
def IsSnakeCase (name : String) : Prop :=
  ∀ segment ∈ name.toList.splitOn '_', IsSegment segment

instance (name : String) : Decidable (IsSnakeCase name) :=
  List.decidableBAll _ (name.toList.splitOn '_')

example : IsSnakeCase "line2_total" := by decide +kernel
example : ¬IsSnakeCase "line__total" := by decide +kernel
example : ¬IsSnakeCase "" := by decide +kernel

/-- What a character of a stem was in a snake-case name: a capital was a letter behind a separator. -/
def unraise (c : Char) : List Char :=
  if c.isUpper then ['_', c.toLower] else [c]

theorem toNat_lt_of_isLower {c : Char} (h : c.isLower = true) : c.toNat < 128 := by
  obtain ⟨-, hlast⟩ := Bool.and_eq_true_iff.mp h
  have hcode : c.toNat ≤ 122 := UInt32.le_iff_toNat_le.mp (of_decide_eq_true hlast)
  omega

theorem toNat_lt_of_isDigit {c : Char} (h : c.isDigit = true) : c.toNat < 128 := by
  have hlast : '9'.toNat = 57 := rfl
  have hrange := Char.isDigit_iff_toNat.mp h
  omega

/-- The capital of a lower-case letter tells of the separator and of the letter. -/
theorem unraise_toUpper {c : Char} (h : c.isLower = true) : unraise c.toUpper = ['_', c] :=
  forall_ascii (P := fun c => c.isLower = true → unraise c.toUpper = ['_', c]) (by decide +kernel)
    (toNat_lt_of_isLower h) h

/-- What may stand in a segment separates nothing and is no capital. -/
theorem unraise_of_isLower_or_isDigit {c : Char} (h : c.isLower = true ∨ c.isDigit = true) :
    isSeparator c = false ∧ unraise c = [c] :=
  forall_ascii (P := fun c => c.isLower = true ∨ c.isDigit = true → isSeparator c = false ∧ unraise c = [c])
    (by decide +kernel) (h.elim toNat_lt_of_isLower toNat_lt_of_isDigit) h

/-- Behind its first letter a segment is kept as it is. -/
theorem raiseSegments_false {rest : List Char} (h : ∀ c ∈ rest, isSeparator c = false) :
    raiseSegments false rest = rest := by
  induction rest with
  | nil => rfl
  | cons c rest ih =>
    rw [List.forall_mem_cons] at h
    rw [raiseSegments, if_neg (Bool.eq_false_iff.mp h.1), ih h.2]
    rfl

/-- The stem of a segment shows the segment and the separator that may stand before it. -/
theorem IsSegment.flatMap_unraise {segment : List Char} (h : IsSegment segment) :
    (stemOf segment).flatMap unraise = '_' :: segment := by
  cases segment with
  | nil => cases h
  | cons c rest =>
    obtain ⟨hc, hrest⟩ := h
    have hplain := fun d hd => unraise_of_isLower_or_isDigit (hrest d hd)
    have hkept : rest.flatMap unraise = rest := by
      rw [List.flatMap_congr fun d hd => (hplain d hd).2]
      exact List.flatMap_singleton' rest
    rw [stemOf, raiseSegments, if_neg (Bool.eq_false_iff.mp (unraise_of_isLower_or_isDigit (.inl hc)).1),
      if_pos rfl, uppercase_of_ascii (toNat_lt_of_isLower hc),
      raiseSegments_false fun d hd => (hplain d hd).1, List.singleton_append, List.flatMap_cons,
      unraise_toUpper hc, hkept]
    rfl

/-- A snake-case name is read back from its stem. -/
theorem flatMap_unraise_stemOf {name : List Char}
    (h : ∀ segment ∈ name.splitOn '_', IsSegment segment) :
    (stemOf name).flatMap unraise = '_' :: name := by
  have hsegments : (name.splitOn '_').flatMap (fun segment => (stemOf segment).flatMap unraise) =
      (name.splitOn '_').flatMap ('_' :: ·) :=
    List.flatMap_congr fun segment hsegment => (h segment hsegment).flatMap_unraise
  rw [@stemOf_eq_flatMap_splitOnP (· == '_') (by simp [isSeparator]), ← List.splitOn_eq_splitOnP,
    List.flatMap_assoc, hsegments,
    Pieces.flatMap_cons_eq_cons_intercalate '_' (List.splitOn_ne_nil _ _), List.intercalate_splitOn]

theorem eq_of_accessorStem_eq {name other : String} (hname : IsSnakeCase name)
    (hother : IsSnakeCase other) (h : accessorStem name = accessorStem other) : name = other := by
  rw [accessorStem_eq, accessorStem_eq, String.ofList_inj] at h
  have hback := flatMap_unraise_stemOf hname
  rw [h, flatMap_unraise_stemOf hother] at hback
  exact String.toList_inj.mp (List.cons.inj hback).2.symm

theorem getter_inj {stem other : String} : getter stem = getter other ↔ stem = other := by
  simp [getter]

theorem setter_inj {stem other : String} : setter stem = setter other ↔ stem = other := by
  simp [setter]

theorem getter_ne_setter (stem other : String) : getter stem ≠ setter other := by
  intro h
  have hchars := congrArg String.toList h
  simp [getter, setter] at hchars

end SchemaCompiler.Name

namespace SchemaCompiler

open Name

/-- The names of the methods that read and replace the properties of a model. -/
def Model.accessors (model : Model) : List String :=
  model.properties.map (·.getter) ++ model.properties.map (·.setter.name)

theorem PropertyDescriptor.accessors_of_compile {types : TypeMap} {settings : Settings}
    {spec : PropertySpec} {required : Bool} {property : PropertyDescriptor}
    (h : compile types settings spec required = .ok property) :
    property.getter = Name.getter (accessorStem property.name) ∧
      property.setter.name = Name.setter (accessorStem property.name) := by
  obtain ⟨type, default, -, -, rfl⟩ := compile_eq_ok_iff.mp h
  exact ⟨rfl, rfl⟩

/-- The accessors of a model follow from the names of its properties. -/
theorem Generation.accessors_of_mem_values {settings : Settings} {definitions : List Definition}
    {generation : Generation} (h : ofDefinitions settings definitions = .ok generation) {model : Model}
    (hmodel : model ∈ generation.models.values) :
    model.accessors =
      (model.properties.map (·.name)).map (Name.getter ∘ accessorStem) ++
        (model.properties.map (·.name)).map (Name.setter ∘ accessorStem) := by
  have haccessors : ∀ property ∈ model.properties,
      property.getter = Name.getter (accessorStem property.name) ∧
        property.setter.name = Name.setter (accessorStem property.name) := by
    intro property hproperty
    obtain ⟨definition, -, spec, -, hspec⟩ := exists_compile_of_mem_properties h hmodel hproperty
    exact PropertyDescriptor.accessors_of_compile hspec
  rw [Model.accessors, List.map_map, List.map_map,
    List.map_congr_left fun property hproperty => (haccessors property hproperty).1,
    List.map_congr_left fun property hproperty => (haccessors property hproperty).2]
  rfl

/-- Names with different stems have different accessors. -/
theorem Name.nodup_accessors {names : List String} (hnodup : names.Nodup)
    (hinj : ∀ name ∈ names, ∀ other ∈ names, accessorStem name = accessorStem other → name = other) :
    (names.map (Name.getter ∘ accessorStem) ++ names.map (Name.setter ∘ accessorStem)).Nodup := by
  rw [List.nodup_append]
  refine ⟨hnodup.map_on fun name hname other hother heq => ?_,
    hnodup.map_on fun name hname other hother heq => ?_, ?_⟩
  · exact hinj name hname other hother (getter_inj.mp heq)
  · exact hinj name hname other hother (setter_inj.mp heq)
  · intro reader hreader writer hwriter
    obtain ⟨name, -, rfl⟩ := List.mem_map.mp hreader
    obtain ⟨other, -, rfl⟩ := List.mem_map.mp hwriter
    exact getter_ne_setter _ _

/-- **Accessors.** A separator takes the stem of a name apart into the stems of what is before and behind
it, so separators at either end of a name do nothing, and more separators behind one do nothing either.
Snake-case names with the same stem are the same. So in every run the getters and setters of a model are
all different if its properties have different snake-case names. -/
theorem accessors_distinct :
    (∀ front back c, isSeparator c = true →
      accessorStem (front ++ .singleton c ++ back) = accessorStem front ++ accessorStem back) ∧
    (∀ gap, IsGap gap →
      (∀ name, accessorStem (gap ++ name) = accessorStem name ∧
        accessorStem (name ++ gap) = accessorStem name) ∧
      ∀ front back c, isSeparator c = true →
        accessorStem (front ++ .singleton c ++ gap ++ back) =
          accessorStem (front ++ .singleton c ++ back)) ∧
    (∀ name other, IsSnakeCase name → IsSnakeCase other → accessorStem name = accessorStem other →
      name = other) ∧
    ∀ {settings definitions generation}, Generation.ofDefinitions settings definitions = .ok generation →
      ∀ model ∈ generation.models.values, (model.properties.map (·.name)).Nodup →
        (∀ property ∈ model.properties, IsSnakeCase property.name) → model.accessors.Nodup := by
  refine ⟨fun front back c hc => accessorStem_append_of_separator hc front back, ?_,
    fun name other => eq_of_accessorStem_eq, ?_⟩
  · intro gap hgap
    refine ⟨fun name => ⟨accessorStem_gap_append hgap name, accessorStem_append_gap hgap name⟩, ?_⟩
    intro front back c hc
    have hgrouped : front ++ .singleton c ++ gap ++ back = front ++ .singleton c ++ (gap ++ back) :=
      String.append_assoc
    rw [hgrouped, accessorStem_append_of_separator hc, accessorStem_gap_append hgap,
      accessorStem_append_of_separator hc]
  · intro settings definitions generation h model hmodel hnodup hsnake
    rw [Generation.accessors_of_mem_values h hmodel]
    refine Name.nodup_accessors hnodup fun name hname other hother => ?_
    obtain ⟨property, hproperty, rfl⟩ := List.mem_map.mp hname
    obtain ⟨another, hanother, rfl⟩ := List.mem_map.mp hother
    exact eq_of_accessorStem_eq (hsnake property hproperty) (hsnake another hanother)

/-- An invoice with properties that differ in where their separators are. -/
def invoice : Definition where
  id := "invoice"
  kind := .object
  properties :=
    [⟨"line2_total", .primitive "number", none⟩, ⟨"line2total", .primitive "number", none⟩,
      ⟨"created_at", .primitive "string", none⟩]

/-- The accessors of the invoice differ, as do those of snake-case names that are read back. -/
theorem invoice_accessors : ∃ generation model,
    Generation.ofDefinitions {} [invoice] = .ok generation ∧
    generation.models.get? "Invoice" = some model ∧
    model.accessors = ["getLine2Total", "getLine2total", "getCreatedAt", "setLine2Total",
      "setLine2total", "setCreatedAt"] ∧
    model.accessors.Nodup ∧
    accessorStem "content-type" = accessorStem "content" ++ accessorStem "type" ∧
    accessorStem "__name" = accessorStem "name" ∧ accessorStem "name__" = accessorStem "name" ∧
    accessorStem "content-__type" = accessorStem "content-type" ∧
    accessorStem "created_at" ≠ accessorStem "createdat" := by
  obtain ⟨hover, hgaps, hinj, hdistinct⟩ := accessors_distinct
  obtain ⟨generation, model, h, hget, hmodel, hnodup, hsnake, haccessors⟩ : ∃ generation model,
      Generation.ofDefinitions {} [invoice] = .ok generation ∧
      generation.models.get? "Invoice" = some model ∧ model ∈ generation.models.values ∧
      (model.properties.map (·.name)).Nodup ∧
      (∀ property ∈ model.properties, IsSnakeCase property.name) ∧
      model.accessors = ["getLine2Total", "getLine2total", "getCreatedAt", "setLine2Total",
        "setLine2total", "setCreatedAt"] :=
    ⟨_, _, rfl, rfl, .head _, by decide +kernel, by decide +kernel, by decide +kernel⟩
  obtain ⟨hends, hrepeated⟩ := hgaps "__" (by decide)
  refine ⟨generation, model, h, hget, haccessors, hdistinct h model hmodel hnodup hsnake,
    hover "content" "type" '-' rfl, (hends "name").1, (hends "name").2,
    hrepeated "content" "type" '-' rfl, fun heq => ?_⟩
  have hsame := hinj "created_at" "createdat" (by decide +kernel) (by decide +kernel) heq
  revert hsame
  decide

end SchemaCompiler
