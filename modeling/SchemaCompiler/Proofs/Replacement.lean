import SchemaCompiler.Proofs.Registration

/-!
# No model is lost without a notice

Objects with one type name share one model, that of the last. Each time an object takes a name that an
object before it has, a notice says so; it names the object and the nearest one before it that had the
name (`nameTaken_mem_noticesOfDocument_iff`). So many notices are given as objects are without a model
of their own (`nameTaken_notices_count_lost_models`).

The notices come from the owners of the names, a table that is kept while the definitions are gone
through once. What carries the proofs is that the owners are always the table of the objects so far,
whatever table they started from (`owners`): a notice is given exactly when the table does not grow.
-/

namespace SchemaCompiler

/-! ### Notices of taken names -/

/-- Whether a notice says that a name is taken. -/
def Notice.isNameTaken : Notice → Bool
  | nameTaken .. => true
  | _ => false

theorem Definition.isNameTaken_typeNameNotices {definition : Definition} {notice : Notice}
    (h : notice ∈ definition.typeNameNotices) : notice.isNameTaken = false := by
  rw [typeNameNotices] at h
  split at h
  · cases h
  · split_ifs at h
    · rw [List.mem_singleton.mp h]
      rfl
    · cases h

theorem Definition.isNameTaken_compositionNotices {id : String} {schema : Schema} {notice : Notice}
    (h : notice ∈ compositionNotices id schema) : notice.isNameTaken = false := by
  rw [compositionNotices] at h
  split at h
  · cases h
  · rw [List.mem_append] at h
    rcases h with h | h <;> split_ifs at h <;> simp_all [Notice.isNameTaken]

/-- Compiling a model takes no name. -/
theorem Model.isNameTaken_notices {types : TypeMap} {definition : Definition} {notice : Notice}
    (h : notice ∈ notices types definition) : notice.isNameTaken = false := by
  rw [notices, List.mem_append] at h
  rcases h with h | h
  · split at h
    · cases h
    · exact Definition.isNameTaken_typeNameNotices h
  · split at h
    · rw [List.mem_singleton.mp h]
      rfl
    · cases h

theorem Model.isNameTaken_noticesOfAll {types : TypeMap} {settings : Settings}
    {definitions : List Definition} {notice : Notice}
    (h : notice ∈ noticesOfAll types settings definitions) : notice.isNameTaken = false := by
  induction definitions with
  | nil => cases h
  | cons definition later ih =>
    rw [noticesOfAll] at h
    split_ifs at h with hobj
    · rw [List.mem_append] at h
      rcases h with h | h
      · exact isNameTaken_notices h
      · cases hm : compile types settings definition with
        | error fault => simp [hm] at h
        | ok model =>
          rw [hm, List.mem_cons] at h
          rcases h with rfl | h
          · rfl
          · exact ih h
    · exact ih h

/-! ### The owners of names -/

namespace TypeMap

/-- For every type name the last object that has it, when those in `owned` come first. -/
def owners (owned : Table String) (definitions : List Definition) : Table String :=
  ((definitions.filter (·.isObject)).map fun d => (d.typeName, d.id)).foldl
    (fun t pair => t.insert pair.1 pair.2) owned

@[simp] theorem owners_nil (owned : Table String) : owners owned [] = owned := rfl

theorem owners_cons_object (owned : Table String) {definition : Definition} (later : List Definition)
    (h : definition.isObject) : owners owned (definition :: later) =
      owners (owned.insert definition.typeName definition.id) later := by
  rw [owners, List.filter_cons_of_pos h]
  rfl

theorem owners_cons_other (owned : Table String) {definition : Definition} (later : List Definition)
    (h : ¬ definition.isObject) : owners owned (definition :: later) = owners owned later := by
  rw [owners, List.filter_cons_of_neg h]
  rfl

/-- The owner of a name is the last object that has it. -/
theorem get?_owners_eq_some_iff (definitions : List Definition) (name id : String) :
    (owners .empty definitions).get? name = some id ↔
      ∃ earlier definition later, definitions = earlier ++ definition :: later ∧
        definition.isObject ∧ definition.typeName = name ∧ definition.id = id ∧
        ∀ d ∈ later, d.isObject → d.typeName ≠ name := by
  have hlast : (owners .empty definitions).get? name =
      (definitions.reverse.find? fun d => d.isObject && d.typeName = name).map (·.id) := by
    have htable : (owners .empty definitions).get? name = _ :=
      Table.get?_ofList_map (fun d : Definition => d.typeName) (fun d => d.id)
        (definitions.filter (·.isObject)) name
    rw [← List.filter_reverse, List.find?_filter] at htable
    simpa only [Bool.decide_and, Bool.decide_eq_true] using htable
  rw [hlast, Option.map_eq_some_iff]
  simp only [find?_reverse_eq_some_iff]
  constructor
  · rintro ⟨definition, ⟨hkind, earlier, later, hsplit, absent⟩, hid⟩
    simp only [Bool.and_eq_true, decide_eq_true_eq] at hkind
    refine ⟨earlier, definition, later, hsplit, hkind.1, hkind.2, hid, fun d hd hobj => ?_⟩
    simpa [hobj] using absent d hd
  · rintro ⟨earlier, definition, later, hsplit, hobj, hname, hid, absent⟩
    refine ⟨definition, ⟨by simp [hobj, hname], earlier, later, hsplit, fun d hd => ?_⟩, hid⟩
    simpa using absent d hd

/-! ### One object after the other -/

/-- The notice that an object gives when its type name has an owner. -/
def takenNotice? (owned : Table String) (definition : Definition) : Option Notice :=
  (owned.get? definition.typeName).map fun first =>
    .nameTaken definition.typeName first definition.id

/-- What an object gives notice of: its own name, an owner that it replaces, and its registration. -/
theorem noticesFrom_cons_object (owned : Table String) {definition : Definition}
    (later : List Definition) (h : definition.isObject) :
    noticesFrom owned.entries (definition :: later) =
      definition.typeNameNotices ++ (takenNotice? owned definition).toList ++
        .registered definition.id definition.resolved.name ::
          noticesFrom (owned.insert definition.typeName definition.id).entries later := by
  rw [noticesFrom, if_pos h, takenNotice?, Table.get?]
  dsimp only
  cases owned.entries.lookup definition.typeName <;> rfl

theorem noticesFrom_cons_other (owned : Table String) {definition : Definition}
    (later : List Definition) (h : ¬ definition.isObject) :
    noticesFrom owned.entries (definition :: later) =
      .registered definition.id definition.resolved.name :: noticesFrom owned.entries later := by
  rw [noticesFrom, if_neg h]

/-- An object gives a notice exactly when the owners do not grow. -/
theorem countP_takenNotice?_add_length_keys (owned : Table String) (definition : Definition) :
    (takenNotice? owned definition).toList.countP Notice.isNameTaken +
        (owned.insert definition.typeName definition.id).keys.length =
      owned.keys.length + 1 := by
  rw [Table.keys_insert, takenNotice?]
  cases hget : owned.get? definition.typeName with
  | none =>
    have habsent : definition.typeName ∉ owned.keys := by
      rw [Table.mem_keys_iff, hget]
      simp
    simp [habsent]
  | some first =>
    have hmem : definition.typeName ∈ owned.keys := (Table.mem_keys_iff _ _).mpr ⟨first, hget⟩
    simp [hmem, Notice.isNameTaken, Nat.add_comm]

/-- Each object of a list gives a notice or becomes the owner of a name that nobody had. -/
theorem countP_noticesFrom_add_length_keys (owned : Table String) (definitions : List Definition) :
    (noticesFrom owned.entries definitions).countP Notice.isNameTaken +
        (owners owned definitions).keys.length =
      owned.keys.length + (definitions.filter (·.isObject)).length := by
  -- for any owners to begin with, since each object leaves others to the next
  induction definitions generalizing owned with
  | nil => simp [noticesFrom]
  | cons definition later ih =>
    by_cases hobj : definition.isObject
    · have hname : definition.typeNameNotices.countP Notice.isNameTaken = 0 := by
        rw [List.countP_eq_zero]
        exact fun notice h => by simp [Definition.isNameTaken_typeNameNotices h]
      have hstep := countP_takenNotice?_add_length_keys owned definition
      have hlater := ih (owned.insert definition.typeName definition.id)
      rw [noticesFrom_cons_object _ _ hobj, owners_cons_object _ _ hobj,
        List.filter_cons_of_pos (p := fun d : Definition => d.isObject) hobj, List.countP_append,
        List.countP_append, hname, List.countP_cons_of_neg (by simp [Notice.isNameTaken]),
        List.length_cons]
      omega
    · rw [noticesFrom_cons_other _ _ hobj, owners_cons_other _ _ hobj,
        List.filter_cons_of_neg hobj, List.countP_cons_of_neg (by simp [Notice.isNameTaken]), ih]

/-- A notice names an object and the owner that its type name has just before. -/
theorem nameTaken_mem_noticesFrom_iff (owned : Table String) (definitions : List Definition)
    (name first second : String) :
    Notice.nameTaken name first second ∈ noticesFrom owned.entries definitions ↔
      ∃ earlier definition later, definitions = earlier ++ definition :: later ∧
        definition.isObject ∧ definition.typeName = name ∧ definition.id = second ∧
        (owners owned earlier).get? name = some first := by
  induction definitions generalizing owned with
  | nil => simp [noticesFrom]
  | cons head rest ih =>
    rw [exists_split_cons_iff]
    by_cases hobj : head.isObject
    · have hname : Notice.nameTaken name first second ∉ head.typeNameNotices :=
        fun h => by simpa [Notice.isNameTaken] using Definition.isNameTaken_typeNameNotices h
      have hhead : Notice.nameTaken name first second ∈ (takenNotice? owned head).toList ↔
          head.typeName = name ∧ head.id = second ∧ owned.get? name = some first := by
        rw [takenNotice?, Option.mem_toList, Option.map_eq_some_iff]
        constructor
        · rintro ⟨owner, hget, heq⟩
          cases heq
          exact ⟨rfl, rfl, hget⟩
        · rintro ⟨rfl, rfl, hget⟩
          exact ⟨first, hget, rfl⟩
      simp only [noticesFrom_cons_object _ _ hobj, owners_cons_object _ _ hobj, owners_nil,
        List.mem_append, List.mem_cons, hname, hhead, ih, hobj, reduceCtorEq, false_or, true_and]
    · simp only [noticesFrom_cons_other _ _ hobj, owners_cons_other _ _ hobj, List.mem_cons, ih, hobj,
        reduceCtorEq, false_or, Bool.false_eq_true, false_and]

end TypeMap

/-! ### Notices of a run -/

namespace Generation

variable {settings : Settings} {document : Document} {generation : Generation}

/-- The only notices of taken names are those given while the table of types is built. -/
theorem filter_noticesOfDocument (settings : Settings) (document : Document) :
    (noticesOfDocument settings document).filter Notice.isNameTaken =
      (TypeMap.notices document.toDefinitions).filter Notice.isNameTaken := by
  have hparts : document.compositionNotices.filter Notice.isNameTaken = [] := by
    rw [List.filter_eq_nil_iff]
    intro notice hnotice
    obtain ⟨entry, -, hentry⟩ := List.mem_flatMap.mp hnotice
    simp [Definition.isNameTaken_compositionNotices hentry]
  have hmodels : (Model.noticesOfAll (.ofDefinitions document.toDefinitions) settings
      document.toDefinitions).filter Notice.isNameTaken = [] := by
    rw [List.filter_eq_nil_iff]
    exact fun notice h => by simp [Model.isNameTaken_noticesOfAll h]
  rw [noticesOfDocument, notices, List.filter_append, List.filter_append, hparts, hmodels,
    List.nil_append, List.append_nil]

/-- A notice names an object and the nearest one before it that has the same type name. -/
theorem nameTaken_mem_noticesOfDocument_iff (name first second : String) :
    Notice.nameTaken name first second ∈ noticesOfDocument settings document ↔
      ∃ front earlier between definition later,
        document.toDefinitions = front ++ earlier :: between ++ definition :: later ∧
        (earlier.isObject ∧ earlier.typeName = name ∧ earlier.id = first) ∧
        (definition.isObject ∧ definition.typeName = name ∧ definition.id = second) ∧
        ∀ d ∈ between, d.isObject → d.typeName ≠ name := by
  have hmem : Notice.nameTaken name first second ∈ noticesOfDocument settings document ↔
      Notice.nameTaken name first second ∈ TypeMap.notices document.toDefinitions := by
    have hfilter (notices : List Notice) : Notice.nameTaken name first second ∈ notices ↔
        Notice.nameTaken name first second ∈ notices.filter Notice.isNameTaken := by
      simp [Notice.isNameTaken]
    rw [hfilter, filter_noticesOfDocument, ← hfilter]
  have howners := TypeMap.nameTaken_mem_noticesFrom_iff .empty document.toDefinitions name first second
  rw [hmem]
  refine howners.trans ?_
  simp only [TypeMap.get?_owners_eq_some_iff]
  constructor
  · rintro ⟨_, definition, later, hsplit, hobj, hname, hid, front, earlier, between, rfl, howner⟩
    exact ⟨front, earlier, between, definition, later, hsplit, ⟨howner.1, howner.2.1, howner.2.2.1⟩,
      ⟨hobj, hname, hid⟩, howner.2.2.2⟩
  · rintro ⟨front, earlier, between, definition, later, hsplit, howner, hobject, hbetween⟩
    exact ⟨_, definition, later, hsplit, hobject.1, hobject.2.1, hobject.2.2, front, earlier, between,
      rfl, howner.1, howner.2.1, howner.2.2, hbetween⟩

theorem nodup_ids_toDefinitions (document : Document) :
    (document.toDefinitions.map (·.id)).Nodup := by
  have hids : document.toDefinitions.map (·.id) = document.definitions.keys := by
    rw [Document.toDefinitions, List.map_map]
    rfl
  rw [hids]
  exact document.definitions.nodup_keys

theorem keys_of_document (h : ofDocument settings document = .ok generation) :
    generation.models.keys =
      ((document.toDefinitions.filter (·.isObject)).map (·.typeName)).eraseDups :=
  keys_of_nodup (nodup_ids_toDefinitions document) h

/-- Each object gives a notice or a model. -/
theorem countP_noticesOfDocument_add_size (h : ofDocument settings document = .ok generation) :
    (noticesOfDocument settings document).countP Notice.isNameTaken + generation.models.size =
      (document.toDefinitions.filter (·.isObject)).length := by
  have hcount := TypeMap.countP_noticesFrom_add_length_keys .empty document.toDefinitions
  have howners : (TypeMap.owners .empty document.toDefinitions).keys = generation.models.keys := by
    rw [keys_of_document h]
    refine (Table.keys_ofList _).trans ?_
    rw [List.map_map]
    rfl
  rw [Table.keys_empty, List.length_nil, Nat.zero_add, howners, Table.length_keys] at hcount
  rw [List.countP_eq_length_filter, filter_noticesOfDocument, ← List.countP_eq_length_filter]
  exact hcount

end Generation

variable {settings : Settings} {document : Document} {generation : Generation}

/-- **No model is lost without a notice.** A run gives as many notices of taken names as there are more
objects than models. Each names an object and the nearest one before it that has the same type name, and
there is one for each object that has any. So without such a notice every object has a model of its own,
and the models come in the order of the objects. -/
theorem nameTaken_notices_count_lost_models
    (h : Generation.ofDocument settings document = .ok generation) :
    (Generation.noticesOfDocument settings document).countP Notice.isNameTaken +
        generation.models.size = (document.toDefinitions.filter (·.isObject)).length ∧
    (∀ name first second,
      Notice.nameTaken name first second ∈ Generation.noticesOfDocument settings document ↔
        ∃ front earlier between definition later,
          document.toDefinitions = front ++ earlier :: between ++ definition :: later ∧
          (earlier.isObject ∧ earlier.typeName = name ∧ earlier.id = first) ∧
          (definition.isObject ∧ definition.typeName = name ∧ definition.id = second) ∧
          ∀ d ∈ between, d.isObject → d.typeName ≠ name) ∧
    ((∀ notice ∈ Generation.noticesOfDocument settings document, notice.isNameTaken = false) →
      generation.models.size = (document.toDefinitions.filter (·.isObject)).length ∧
      generation.models.keys =
        (document.toDefinitions.filter (·.isObject)).map (·.typeName)) := by
  have hcount := Generation.countP_noticesOfDocument_add_size h
  refine ⟨hcount, Generation.nameTaken_mem_noticesOfDocument_iff, fun hnone => ?_⟩
  have hzero : (Generation.noticesOfDocument settings document).countP Notice.isNameTaken = 0 := by
    rw [List.countP_eq_zero]
    exact fun notice hnotice => by simp [hnone notice hnotice]
  have hsize : generation.models.size = (document.toDefinitions.filter (·.isObject)).length := by
    omega
  refine ⟨hsize, ?_⟩
  -- the names are those of the objects without repetitions, and none is missing
  have hlength : generation.models.keys.length =
      ((document.toDefinitions.filter (·.isObject)).map (·.typeName)).length := by
    rw [List.length_map, ← hsize, Table.length_keys]
  rw [Generation.keys_of_document h] at hlength ⊢
  exact (eraseDups_sublist _).eq_of_length hlength

/-- Four objects, three of them pets: by the title, by another spelling of it, and by the identifier
where the title has nothing to make a name of. -/
def namesakes : Document where
  definitions := .ofList
    [("first", { type := some (.text "object"), title := some "Pet" }),
     ("sku", { type := some (.text "string"), title := some "Pet" }),
     ("tag", { type := some (.text "object") }),
     ("second", { type := some (.text "object"), title := some "pet" }),
     ("pet", { type := some (.text "object"), title := some "!!!" })]

/-- Two models are made of them, and two notices are given. -/
theorem namesakes_notices :
    ∃ generation, Generation.ofDocument {} namesakes = .ok generation ∧
      generation.models.keys = ["Pet", "Tag"] ∧
      (Generation.noticesOfDocument {} namesakes).countP Notice.isNameTaken = 2 ∧
      Notice.nameTaken "Pet" "first" "second" ∈ Generation.noticesOfDocument {} namesakes ∧
      Notice.nameTaken "Pet" "second" "pet" ∈ Generation.noticesOfDocument {} namesakes := by
  have h := (rfl : Generation.ofDocument {} namesakes = .ok _)
  obtain ⟨hcount, hmem, -⟩ := nameTaken_notices_count_lost_models h
  have hobjects : (namesakes.toDefinitions.filter (·.isObject)).length = 4 := by decide
  refine ⟨_, h, by decide, ?_, (hmem _ _ _).mpr ?_, (hmem _ _ _).mpr ?_⟩
  · rw [hobjects] at hcount
    exact Nat.add_right_cancel (hcount.trans (by decide : 4 = 2 + _))
  · let definitions := namesakes.toDefinitions
    exact ⟨[], definitions[0], definitions.drop 1 |>.take 2, definitions[3], definitions.drop 4,
      by decide, by decide, by decide, by decide⟩
  · let definitions := namesakes.toDefinitions
    exact ⟨definitions.take 3, definitions[3], [], definitions[4], [],
      by decide, by decide, by decide, by decide⟩

end SchemaCompiler
