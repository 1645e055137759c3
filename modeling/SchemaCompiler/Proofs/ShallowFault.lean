import Mathlib.Data.List.Nodup
import SchemaCompiler.Proofs.Document

/-!
# The shallow grammar of documents

A JSON text of a document can only fail near its root. This module says where: a `ShallowFault` is a
root, a map of definitions, a definition or the value of a field that is of the wrong kind, and nothing
below `type`, `items`, a property or a part of a composition is one. Document order is the order of
`Json.paths`, in which a value comes before its parts and the parts come in the order of the text. A
text fails exactly when its value has a shallow fault, and the path that is reported is that of the first
one (`parse_fails_at_first_shallow_fault`).

Roots and definitions that are lists are left out; they are read by place and have faults of their own.
-/

namespace SchemaCompiler

open Traversal

/-! ### Document order -/

namespace Json

mutual

/-- The paths of a value and of all of its parts in document order. -/
def paths : Json → List (List Segment)
  | .list items => [] :: pathsItems 0 items
  | .object entries => [] :: pathsEntries entries
  | .null | .bool _ | .number _ | .text _ => [[]]

/-- The paths of the items of an array, the first of which has the given index. -/
def pathsItems (i : Nat) : List Json → List (List Segment)
  | [] => []
  | item :: items => item.paths.map (.index i :: ·) ++ pathsItems (i + 1) items

/-- The paths of the values of an object. -/
def pathsEntries : List (String × Json) → List (List Segment)
  | [] => []
  | (name, value) :: entries => value.paths.map (.key name :: ·) ++ pathsEntries entries

end

theorem exists_of_mem_pathsItems {items : List Json} {i : Nat} {path : List Segment}
    (h : path ∈ pathsItems i items) : ∃ j below, i ≤ j ∧ path = .index j :: below := by
  induction items generalizing i with
  | nil => cases h
  | cons item items ih =>
    rw [pathsItems, List.mem_append, List.mem_map] at h
    rcases h with ⟨below, -, rfl⟩ | h
    · exact ⟨i, below, Nat.le_refl i, rfl⟩
    · obtain ⟨j, below, hj, rfl⟩ := ih h
      exact ⟨j, below, Nat.le_of_succ_le hj, rfl⟩

theorem exists_of_mem_pathsEntries {entries : List (String × Json)} {path : List Segment}
    (h : path ∈ pathsEntries entries) :
    ∃ name ∈ entries.map Prod.fst, ∃ below, path = .key name :: below := by
  induction entries with
  | nil => cases h
  | cons entry entries ih =>
    obtain ⟨name, value⟩ := entry
    rw [pathsEntries, List.mem_append, List.mem_map] at h
    rcases h with ⟨below, -, rfl⟩ | h
    · exact ⟨name, List.mem_cons_self, below, rfl⟩
    · obtain ⟨later, hlater, below, rfl⟩ := ih h
      exact ⟨later, List.mem_cons_of_mem _ hlater, below, rfl⟩

theorem nodup_pathsItems {items : List Json} (h : ∀ item ∈ items, item.paths.Nodup) (i : Nat) :
    (pathsItems i items).Nodup := by
  induction items generalizing i with
  | nil => exact List.nodup_nil
  | cons item items ih =>
    rw [pathsItems]
    refine List.Nodup.append ((h item List.mem_cons_self).map (List.cons_injective))
      (ih (fun other hother => h other (List.mem_cons_of_mem _ hother)) (i + 1)) ?_
    intro path hfirst hlater
    obtain ⟨below, -, rfl⟩ := List.mem_map.mp hfirst
    obtain ⟨j, below, hj, heq⟩ := exists_of_mem_pathsItems hlater
    simp only [List.cons.injEq, Segment.index.injEq] at heq
    omega

theorem nodup_pathsEntries {entries : List (String × Json)} (distinct : (entries.map Prod.fst).Nodup)
    (h : ∀ entry ∈ entries, entry.2.paths.Nodup) : (pathsEntries entries).Nodup := by
  induction entries with
  | nil => exact List.nodup_nil
  | cons entry entries ih =>
    obtain ⟨name, value⟩ := entry
    obtain ⟨hname, distinct⟩ := List.nodup_cons.mp distinct
    rw [pathsEntries]
    refine List.Nodup.append ((h (name, value) List.mem_cons_self).map List.cons_injective)
      (ih distinct fun other hother => h other (List.mem_cons_of_mem _ hother)) ?_
    intro path hfirst hlater
    obtain ⟨below, -, rfl⟩ := List.mem_map.mp hfirst
    obtain ⟨later, hmem, below, heq⟩ := exists_of_mem_pathsEntries hlater
    simp only [List.cons.injEq, Segment.key.injEq] at heq
    exact hname (heq.1 ▸ hmem)

/-- When the keys of every object are distinct, no two parts of a value have the same path. -/
theorem nodup_paths {value : Json} (h : value.Regular) : value.paths.Nodup := by
  induction h with
  | null | bool | number | text => exact List.nodup_singleton _
  | list _ ih =>
    refine List.nodup_cons.mpr ⟨fun hmem => ?_, nodup_pathsItems ih 0⟩
    obtain ⟨j, below, -, heq⟩ := exists_of_mem_pathsItems hmem
    cases heq
  | object distinct _ ih =>
    refine List.nodup_cons.mpr ⟨fun hmem => ?_, nodup_pathsEntries distinct ih⟩
    obtain ⟨name, -, below, heq⟩ := exists_of_mem_pathsEntries hmem
    cases heq

end Json

/-! ### Shallow faults -/

/-- The paths inside of the value of a field at which the value is of the wrong kind. -/
inductive Key.FaultAt : Key → Json → List Segment → Prop where
  /-- A reference, title or description is neither null nor a text. -/
  | text {key : Key} {value : Json} (hkey : key = .reference ∨ key = .title ∨ key = .description)
      (hnull : value ≠ .null) (h : ∀ s, value ≠ .text s) : FaultAt key value []
  /-- The required names or the parts of a composition are neither null nor an array. -/
  | list {key : Key} {value : Json} (hkey : key = .required ∨ key = .allOf) (hnull : value ≠ .null)
      (h : ∀ items, value ≠ .list items) : FaultAt key value []
  /-- A required name is not a text. -/
  | name {items : List Json} {i : Nat} {item : Json} (hitem : items[i]? = some item)
      (h : ∀ s, item ≠ .text s) : FaultAt .required (.list items) [.index i]
  /-- The properties are neither null nor an object. -/
  | properties {value : Json} (hnull : value ≠ .null) (h : ∀ entries, value ≠ .object entries) :
      FaultAt .properties value []

/-- The paths inside of a definition at which it is of the wrong kind. -/
inductive Json.DefinitionFault (definition : Json) : List Segment → Prop where
  /-- The definition is not an object. -/
  | shape (h : ∀ entries, definition ≠ .object entries) : DefinitionFault definition []
  /-- The value of a field is at fault. -/
  | field {key : Key} {value : Json} {path : List Segment} (hvalue : definition.Has key.text value)
      (h : key.FaultAt value path) : DefinitionFault definition (.key key.text :: path)

/-- The paths inside of a document at which it is of the wrong kind. -/
inductive Json.ShallowFault (root : Json) : List Segment → Prop where
  /-- The root is not an object. -/
  | root (h : ∀ entries, root ≠ .object entries) : ShallowFault root []
  /-- The definitions are not an object. -/
  | definitions {definitions : Json} (hdefinitions : root.Has definitionsKey definitions)
      (h : ∀ entries, definitions ≠ .object entries) : ShallowFault root [.key definitionsKey]
  /-- A definition is at fault. -/
  | definition {definitions : Json} {id : String} {definition : Json} {path : List Segment}
      (hdefinitions : root.Has definitionsKey definitions) (hdefinition : definitions.Has id definition)
      (h : definition.DefinitionFault path) :
      ShallowFault root (.key definitionsKey :: .key id :: path)

/-- A place inside of a document at which any value may stand, whatever its shape. -/
inductive LenientPlace : List Segment → Prop where
  /-- The type of a definition. -/
  | type (id : String) : LenientPlace [.key definitionsKey, .key id, .key Key.type.text]
  /-- The elements of a definition. -/
  | items (id : String) : LenientPlace [.key definitionsKey, .key id, .key Key.items.text]
  /-- A property of a definition. -/
  | property (id name : String) :
      LenientPlace [.key definitionsKey, .key id, .key Key.properties.text, .key name]
  /-- A part of a composition. -/
  | part (id : String) (i : Nat) :
      LenientPlace [.key definitionsKey, .key id, .key Key.allOf.text, .index i]

/-- Nothing at or below a lenient place is a shallow fault. -/
theorem not_prefix_of_shallowFault {root : Json} {place path : List Segment}
    (hplace : LenientPlace place) (h : root.ShallowFault path) : ¬ place <+: path := by
  -- a fault at least as deep as a lenient place is one of a field, which fixes the key of the place
  have key_of_prefix : ∀ (key : Key) (below : List Segment) (id : String),
      [.key definitionsKey, .key id, .key key.text] ++ below <+: path →
        ∃ value inside, key.FaultAt value inside ∧ below <+: inside := by
    intro key below id hprefix
    cases h with
    | root => simp at hprefix
    | definitions => simp [List.cons_prefix_cons] at hprefix
    | definition _ _ h =>
      cases h with
      | shape => simp [List.cons_prefix_cons] at hprefix
      | @field other value inside _ h =>
        simp only [List.cons_append, List.nil_append, List.cons_prefix_cons, Segment.key.injEq,
          true_and] at hprefix
        obtain rfl := Key.text_injective hprefix.2.1
        exact ⟨value, inside, h, hprefix.2.2⟩
  intro hprefix
  cases hplace with
  | type id =>
    obtain ⟨_, _, hfault, -⟩ := key_of_prefix .type [] id hprefix
    cases hfault <;> simp_all
  | items id =>
    obtain ⟨_, _, hfault, -⟩ := key_of_prefix .items [] id hprefix
    cases hfault <;> simp_all
  | property id name =>
    obtain ⟨_, _, hfault, hbelow⟩ := key_of_prefix .properties [.key name] id hprefix
    cases hfault <;> simp_all
  | part id i =>
    obtain ⟨_, _, hfault, hbelow⟩ := key_of_prefix .allOf [.index i] id hprefix
    cases hfault <;> simp_all

theorem join_shown_key (name : String) (below : List Segment) :
    String.join ((Segment.key name :: below).map (·.shown false)) =
      "." ++ name ++ String.join (below.map (·.shown false)) := by
  rw [List.map_cons, String.join_cons, Segment.shown, if_neg Bool.false_ne_true]

theorem pathText_definition (id : String) (below : List Segment) :
    pathText (.key definitionsKey :: .key id :: below) =
      "definitions." ++ id ++ String.join (below.map (·.shown false)) := by
  have dot : "definitions." = "" ++ definitionsKey ++ "." := rfl
  rw [pathText, join_shown_key, Segment.shown, if_pos rfl, dot]
  simp only [String.append_assoc]

theorem pathText_field (id name : String) (below : List Segment) :
    pathText (.key definitionsKey :: .key id :: .key name :: below) =
      "definitions." ++ id ++ "." ++ name ++ String.join (below.map (·.shown false)) := by
  rw [pathText_definition, join_shown_key]
  simp only [String.append_assoc]

/-- The paths of shallow faults as texts. -/
theorem pathText_of_shallowFault {root : Json} {path : List Segment} (h : root.ShallowFault path) :
    pathText path = "." ∨ pathText path = "definitions" ∨
      (∃ id, pathText path = "definitions." ++ id) ∨
      (∃ id, ∃ key : Key, pathText path = "definitions." ++ id ++ "." ++ key.text) ∨
      ∃ id, ∃ i : Nat, pathText path = "definitions." ++ id ++ ".required[" ++ toString i ++ "]" := by
  cases h with
  | root => exact .inl rfl
  | definitions => exact .inr (.inl rfl)
  | @definition _ id _ _ _ _ h =>
    cases h with
    | shape =>
      refine .inr (.inr (.inl ⟨id, ?_⟩))
      rw [pathText_definition, List.map_nil, String.join_nil, String.append_empty]
    | field _ h =>
      have hfield : ∀ key : Key,
          pathText [.key definitionsKey, .key id, .key key.text] =
            "definitions." ++ id ++ "." ++ key.text := by
        intro key
        rw [pathText_field, List.map_nil, String.join_nil, String.append_empty]
      cases h with
      | @name _ i =>
        refine .inr (.inr (.inr (.inr ⟨id, i, ?_⟩)))
        have split : ".required[" = "." ++ Key.required.text ++ "[" := rfl
        rw [pathText_field, List.map_singleton, String.join_cons, String.join_nil, Segment.shown, split]
        simp only [String.append_assoc, String.append_empty]
      | _ => exact .inr (.inr (.inr (.inl ⟨id, _, hfield _⟩)))

/-! ### The faults of a value -/

theorem map_path_under (segment : Segment) (faults : List Fault) :
    (faults.map (Fault.under segment)).map Fault.path = (faults.map Fault.path).map (segment :: ·) := by
  rw [List.map_map, List.map_map]
  rfl

namespace Json

theorem mem_map_path_under {segment : Segment} {faults : List Fault} {path : List Segment} :
    path ∈ (faults.map (Fault.under segment)).map Fault.path ↔
      ∃ below ∈ faults.map Fault.path, path = segment :: below := by
  rw [map_path_under, List.mem_map]
  simp only [eq_comm]

theorem mem_optionalFaults_iff {faults : Json → List Fault} {value : Json} {path : List Segment} :
    path ∈ (optionalFaults faults value).map Fault.path ↔
      value ≠ .null ∧ path ∈ (faults value).map Fault.path := by
  cases value <;> simp [optionalFaults]

theorem mem_textFaults_iff {value : Json} {path : List Segment} :
    path ∈ value.textFaults.map Fault.path ↔ path = [] ∧ ∀ s, value ≠ .text s := by
  cases value <;> simp [textFaults, Fault.here]

theorem mem_itemsFaults_iff {items : List Json} {i : Nat} {path : List Segment} :
    path ∈ (itemsFaults textFaults i items).map Fault.path ↔
      ∃ j item, items[j]? = some item ∧ (∀ s, item ≠ .text s) ∧ path = [.index (i + j)] := by
  induction items generalizing i with
  | nil => simp [itemsFaults]
  | cons item items ih =>
    rw [itemsFaults, List.map_append, List.mem_append, ih, mem_map_path_under]
    simp only [mem_textFaults_iff]
    constructor
    · rintro (⟨_, ⟨rfl, htext⟩, rfl⟩ | ⟨j, other, hother, htext, rfl⟩)
      · exact ⟨0, item, rfl, htext, rfl⟩
      · exact ⟨j + 1, other, hother, htext, by rw [Nat.add_right_comm, Nat.add_assoc]⟩
    · rintro ⟨j, other, hother, htext, rfl⟩
      cases j with
      | zero =>
        obtain rfl := Option.some.inj hother
        exact .inl ⟨[], ⟨rfl, htext⟩, rfl⟩
      | succ j => exact .inr ⟨j, other, hother, htext, by rw [Nat.add_right_comm, Nat.add_assoc]⟩

theorem itemsFaults_nil (i : Nat) (items : List Json) : itemsFaults (fun _ => []) i items = [] := by
  induction items generalizing i with
  | nil => rfl
  | cons item items ih => rw [itemsFaults, List.map_nil, List.nil_append, ih]

/-- The faults of a field are those of the wrong kinds. -/
theorem mem_keyFaults_iff {key : Key} {value : Json} {path : List Segment} :
    path ∈ (key.faults value).map Fault.path ↔ key.FaultAt value path := by
  constructor
  · intro h
    cases key with
    | reference | title | description =>
      obtain ⟨hnull, h⟩ := mem_optionalFaults_iff.mp h
      obtain ⟨rfl, htext⟩ := mem_textFaults_iff.mp h
      exact .text (by simp) hnull htext
    | type | items => cases h
    | required =>
      obtain ⟨hnull, h⟩ := mem_optionalFaults_iff.mp h
      cases value with
      | list items =>
        obtain ⟨j, item, hitem, htext, rfl⟩ := mem_itemsFaults_iff.mp h
        exact .name (by rwa [Nat.zero_add]) htext
      | _ =>
        obtain rfl := List.mem_singleton.mp h
        exact .list (.inl rfl) hnull (by simp)
    | properties =>
      obtain ⟨hnull, h⟩ := mem_optionalFaults_iff.mp h
      cases value with
      | object entries => simp [mapFaults] at h
      | _ =>
        obtain rfl := List.mem_singleton.mp h
        exact .properties hnull (by simp)
    | allOf =>
      obtain ⟨hnull, h⟩ := mem_optionalFaults_iff.mp h
      cases value with
      | list items => simp [listFaults, itemsFaults_nil] at h
      | _ =>
        obtain rfl := List.mem_singleton.mp h
        exact .list (.inr rfl) hnull (by simp)
  · intro h
    cases h with
    | text hkey hnull h =>
      have := mem_optionalFaults_iff.mpr ⟨hnull, mem_textFaults_iff.mpr ⟨rfl, h⟩⟩
      rcases hkey with rfl | rfl | rfl <;> exact this
    | list hkey hnull h =>
      rcases hkey with rfl | rfl <;>
        refine mem_optionalFaults_iff.mpr ⟨hnull, ?_⟩ <;>
        cases value <;> simp [listFaults, Fault.here] at h ⊢
    | name hitem h => exact mem_itemsFaults_iff.mpr ⟨_, _, hitem, h, by rw [Nat.zero_add]⟩
    | properties hnull h =>
      refine mem_optionalFaults_iff.mpr ⟨hnull, ?_⟩
      cases value <;> simp [mapFaults, Fault.here] at h ⊢

/-! ### Faults in document order -/

/-- The faults of an entry of a definition. -/
def entryFaults (entry : String × Json) : List Fault :=
  match Key.ofText? entry.1 with
  | none => []
  | some key => (key.faults entry.2).map (Fault.under (.key entry.1))

/-- In a definition with distinct keys no field is given twice. -/
theorem fieldsFaults_eq_flatMap {seen : List Key} {entries : List (String × Json)}
    (distinct : (entries.map Prod.fst).Nodup)
    (fresh : ∀ key ∈ seen, key.text ∉ entries.map Prod.fst) :
    fieldsFaults seen entries = entries.flatMap entryFaults := by
  induction entries generalizing seen with
  | nil => rfl
  | cons entry entries ih =>
    obtain ⟨name, value⟩ := entry
    obtain ⟨hname, hentries⟩ := List.nodup_cons.mp distinct
    have later : ∀ key ∈ seen, key.text ∉ entries.map Prod.fst := fun key hkey hmem =>
      fresh key hkey (List.mem_cons_of_mem _ hmem)
    rw [List.flatMap_cons, fieldsFaults, entryFaults]
    cases hkey : Key.ofText? name with
    | none => exact ih hentries later
    | some key =>
      obtain rfl := Key.text_of_ofText? hkey
      have hseen : key ∉ seen := fun hmem => fresh key hmem List.mem_cons_self
      simp only [hseen, if_false]
      rw [ih hentries]
      intro other hother
      rcases List.mem_cons.mp hother with rfl | hother
      · exact hname
      · exact later other hother

/-- The faults of an entry of the root. -/
def rootEntryFaults (entry : String × Json) : List Fault :=
  if entry.1 = definitionsKey then
    (mapFaults definitionFaults entry.2).map (Fault.under (.key entry.1))
  else []

theorem rootFaults_eq_flatMap {given : Bool} {entries : List (String × Json)}
    (distinct : (entries.map Prod.fst).Nodup)
    (fresh : given = true → definitionsKey ∉ entries.map Prod.fst) :
    rootFaults given entries = entries.flatMap rootEntryFaults := by
  induction entries generalizing given with
  | nil => rfl
  | cons entry entries ih =>
    obtain ⟨name, value⟩ := entry
    obtain ⟨hname, hentries⟩ := List.nodup_cons.mp distinct
    have later : given = true → definitionsKey ∉ entries.map Prod.fst := fun hgiven hmem =>
      fresh hgiven (List.mem_cons_of_mem _ hmem)
    rw [List.flatMap_cons, rootFaults, rootEntryFaults]
    by_cases h : name = definitionsKey
    · subst h
      have hgiven : ¬ given = true := fun hgiven => fresh hgiven List.mem_cons_self
      simp only [hgiven, if_true, if_false, Bool.false_eq_true]
      rw [ih hentries fun _ => hname]
    · simp only [h, if_false, List.nil_append]
      exact ih hentries later

/-- Whether faults are reported at parts of a value in document order. -/
def InOrder (faults : List Fault) (value : Json) : Prop :=
  (faults.map Fault.path).Sublist value.paths

theorem inOrder_nil (value : Json) : InOrder [] value :=
  List.nil_sublist _

theorem inOrder_here (cause : Cause) (value : Json) : InOrder [.here cause] value := by
  cases value <;> exact List.Sublist.cons_cons _ (List.nil_sublist _)

/-- The faults of a part, seen from its container. -/
theorem InOrder.under {faults : List Fault} {part : Json} (h : InOrder faults part)
    (segment : Segment) :
    ((faults.map (Fault.under segment)).map Fault.path).Sublist (part.paths.map (segment :: ·)) := by
  rw [map_path_under]
  exact h.map _

theorem itemsFaults_inOrder {faults : Json → List Fault} {items : List Json}
    (h : ∀ item ∈ items, InOrder (faults item) item) (i : Nat) :
    ((itemsFaults faults i items).map Fault.path).Sublist (pathsItems i items) := by
  induction items generalizing i with
  | nil => exact List.Sublist.slnil
  | cons item items ih =>
    rw [itemsFaults, List.map_append, pathsItems]
    exact ((h item List.mem_cons_self).under _).append
      (ih (fun other hother => h other (List.mem_cons_of_mem _ hother)) (i + 1))

theorem entriesFaults_inOrder {faults : String × Json → List Fault} {entries : List (String × Json)}
    (h : ∀ entry ∈ entries, ((faults entry).map Fault.path).Sublist
      (entry.2.paths.map (.key entry.1 :: ·))) :
    InOrder (entries.flatMap faults) (.object entries) := by
  suffices hentries : ((entries.flatMap faults).map Fault.path).Sublist (pathsEntries entries) from
    hentries.cons _
  induction entries with
  | nil => exact List.Sublist.slnil
  | cons entry entries ih =>
    obtain ⟨name, value⟩ := entry
    rw [List.flatMap_cons, List.map_append, pathsEntries]
    exact (h (name, value) List.mem_cons_self).append
      (ih fun other hother => h other (List.mem_cons_of_mem _ hother))

theorem textFaults_inOrder (value : Json) : InOrder value.textFaults value := by
  cases value <;> first | exact inOrder_nil _ | exact inOrder_here _ _

theorem optionalFaults_inOrder {faults : Json → List Fault} {value : Json}
    (h : InOrder (faults value) value) : InOrder (optionalFaults faults value) value := by
  cases value <;> first | exact inOrder_nil _ | exact h

theorem listFaults_inOrder {faults : Json → List Fault} (h : ∀ item, InOrder (faults item) item)
    (value : Json) : InOrder (listFaults faults value) value := by
  cases value with
  | list items => exact (itemsFaults_inOrder (fun item _ => h item) 0).cons _
  | _ => exact inOrder_here _ _

theorem mapFaults_inOrder {faults : Json → List Fault} {value : Json}
    (h : ∀ name part, value.Has name part → InOrder (faults part) part) :
    InOrder (mapFaults faults value) value := by
  cases value with
  | object entries =>
    exact entriesFaults_inOrder fun entry hentry => (h entry.1 entry.2 ⟨entries, rfl, hentry⟩).under _
  | _ => exact inOrder_here _ _

theorem keyFaults_inOrder (key : Key) (value : Json) : InOrder (key.faults value) value := by
  cases key with
  | reference | title | description => exact optionalFaults_inOrder (textFaults_inOrder value)
  | type | items => exact inOrder_nil value
  | required => exact optionalFaults_inOrder (listFaults_inOrder textFaults_inOrder value)
  | properties => exact optionalFaults_inOrder (mapFaults_inOrder fun _ part _ => inOrder_nil part)
  | allOf => exact optionalFaults_inOrder (listFaults_inOrder inOrder_nil value)

/-! ### The faults of definitions and documents -/

theorem definitionFaults_inOrder {definition : Json} (regular : definition.Regular)
    (hlist : ∀ items, definition ≠ .list items) :
    InOrder definition.definitionFaults definition := by
  cases definition with
  | list items => exact absurd rfl (hlist items)
  | object entries =>
    cases regular with
    | object distinct _ =>
      rw [definitionFaults, fieldsFaults_eq_flatMap distinct fun _ h => absurd h List.not_mem_nil]
      refine entriesFaults_inOrder fun entry _ => ?_
      rw [entryFaults]
      cases Key.ofText? entry.1 with
      | none => exact List.nil_sublist _
      | some key => exact (keyFaults_inOrder key entry.2).under _
  | _ => exact inOrder_here _ _

theorem mem_entryFaults_iff {entry : String × Json} {path : List Segment} :
    path ∈ (entryFaults entry).map Fault.path ↔ ∃ key : Key, entry.1 = key.text ∧
      ∃ below, key.FaultAt entry.2 below ∧ path = .key key.text :: below := by
  rw [entryFaults]
  constructor
  · intro h
    cases hkey : Key.ofText? entry.1 with
    | none => simp [hkey] at h
    | some key =>
      simp only [hkey] at h
      obtain ⟨below, hbelow, rfl⟩ := mem_map_path_under.mp h
      have hname := Key.text_of_ofText? hkey
      exact ⟨key, hname, below, mem_keyFaults_iff.mp hbelow, by rw [hname]⟩
  · rintro ⟨key, hname, below, hbelow, rfl⟩
    simp only [hname, Key.ofText?_text]
    exact mem_map_path_under.mpr ⟨below, mem_keyFaults_iff.mpr hbelow, rfl⟩

theorem mem_definitionFaults_iff {definition : Json} {path : List Segment}
    (regular : definition.Regular) (hlist : ∀ items, definition ≠ .list items) :
    path ∈ definition.definitionFaults.map Fault.path ↔ definition.DefinitionFault path := by
  cases definition with
  | list items => exact absurd rfl (hlist items)
  | object entries =>
    cases regular with
    | object distinct _ =>
      rw [definitionFaults, fieldsFaults_eq_flatMap distinct fun _ h => absurd h List.not_mem_nil,
        List.map_flatMap, List.mem_flatMap]
      constructor
      · rintro ⟨⟨_, value⟩, hentry, hpath⟩
        obtain ⟨key, rfl, below, hbelow, rfl⟩ := mem_entryFaults_iff.mp hpath
        exact .field ⟨entries, rfl, hentry⟩ hbelow
      · intro h
        cases h with
        | shape h => exact absurd rfl (h entries)
        | @field key value below hvalue h =>
          obtain ⟨_, ⟨⟩, hentry⟩ := hvalue
          exact ⟨(key.text, value), hentry, mem_entryFaults_iff.mpr ⟨key, rfl, below, h, rfl⟩⟩
  | _ =>
    constructor
    · intro h
      obtain rfl := List.mem_singleton.mp h
      exact .shape (by simp)
    · intro h
      cases h with
      | shape => exact List.mem_singleton_self _
      | field hvalue =>
        obtain ⟨_, h, -⟩ := hvalue
        cases h

/-- Whether neither the root of a document nor a definition is an array. -/
def ByName (root : Json) : Prop :=
  (∀ items, root ≠ .list items) ∧ ∀ definitions id definition, root.Has definitionsKey definitions →
    definitions.Has id definition → ∀ items, definition ≠ .list items

theorem faults_inOrder {root : Json} (regular : root.Regular) (byName : root.ByName) :
    InOrder root.faults root := by
  cases root with
  | list items => exact absurd rfl (byName.1 items)
  | object entries =>
    obtain ⟨-, hlist⟩ := byName
    cases id regular with
    | object distinct _ =>
      rw [faults, rootFaults_eq_flatMap distinct (by simp)]
      refine entriesFaults_inOrder fun entry hentry => ?_
      rw [rootEntryFaults]
      split
      next hname =>
        have hdefinitions : (object entries).Has definitionsKey entry.2 :=
          ⟨entries, rfl, hname ▸ hentry⟩
        exact (mapFaults_inOrder fun id definition hdefinition => definitionFaults_inOrder
          ((regular.part hdefinitions).part hdefinition)
          (hlist _ id definition hdefinitions hdefinition)).under _
      next => exact List.nil_sublist _
  | _ => exact inOrder_here _ _

theorem mem_mapFaults_iff {faults : Json → List Fault} {value : Json} {path : List Segment} :
    path ∈ (mapFaults faults value).map Fault.path ↔
      (path = [] ∧ ∀ entries, value ≠ .object entries) ∨ ∃ name part below, value.Has name part ∧
        below ∈ (faults part).map Fault.path ∧ path = .key name :: below := by
  cases value with
  | object entries =>
    rw [mapFaults, List.map_flatMap, List.mem_flatMap]
    constructor
    · rintro ⟨⟨name, part⟩, hentry, hpath⟩
      obtain ⟨below, hbelow, rfl⟩ := mem_map_path_under.mp hpath
      exact .inr ⟨name, part, below, ⟨entries, rfl, hentry⟩, hbelow, rfl⟩
    · rintro (⟨-, h⟩ | ⟨name, part, below, ⟨_, ⟨⟩, hentry⟩, hbelow, rfl⟩)
      · exact absurd rfl (h entries)
      · exact ⟨(name, part), hentry, mem_map_path_under.mpr ⟨below, hbelow, rfl⟩⟩
  | _ => simp [mapFaults, Fault.here, Has]

theorem mem_rootEntryFaults_iff {entry : String × Json} {path : List Segment} :
    path ∈ (rootEntryFaults entry).map Fault.path ↔ entry.1 = definitionsKey ∧
      ∃ below ∈ (mapFaults definitionFaults entry.2).map Fault.path,
        path = .key definitionsKey :: below := by
  rw [rootEntryFaults]
  split
  next hname =>
    rw [mem_map_path_under, hname]
    exact (and_iff_right rfl).symm
  next hname => exact ⟨nofun, fun h => absurd h.1 hname⟩

/-- The faults of a document are its shallow faults. -/
theorem mem_faults_iff {root : Json} {path : List Segment} (regular : root.Regular)
    (byName : root.ByName) : path ∈ root.faults.map Fault.path ↔ root.ShallowFault path := by
  have mem_definition : ∀ {definitions id definition below}, root.Has definitionsKey definitions →
      definitions.Has id definition →
      (below ∈ definition.definitionFaults.map Fault.path ↔ definition.DefinitionFault below) :=
    fun hdefinitions hdefinition => mem_definitionFaults_iff
      ((regular.part hdefinitions).part hdefinition) (byName.2 _ _ _ hdefinitions hdefinition)
  cases root with
  | list items => exact absurd rfl (byName.1 items)
  | object entries =>
    cases regular with
    | object distinct _ =>
      rw [faults, rootFaults_eq_flatMap distinct (by simp), List.map_flatMap, List.mem_flatMap]
      constructor
      · rintro ⟨⟨_, definitions⟩, hentry, hpath⟩
        obtain ⟨rfl, below, hbelow, rfl⟩ := mem_rootEntryFaults_iff.mp hpath
        have hdefinitions : (object entries).Has definitionsKey definitions := ⟨entries, rfl, hentry⟩
        rcases mem_mapFaults_iff.mp hbelow with
          ⟨rfl, h⟩ | ⟨id, definition, inside, hdefinition, hinside, rfl⟩
        · exact .definitions hdefinitions h
        · exact .definition hdefinitions hdefinition
            ((mem_definition hdefinitions hdefinition).mp hinside)
      · intro h
        cases h with
        | root h => exact absurd rfl (h entries)
        | definitions hdefinitions h =>
          obtain ⟨_, ⟨⟩, hentry⟩ := hdefinitions
          exact ⟨_, hentry, mem_rootEntryFaults_iff.mpr
            ⟨rfl, _, mem_mapFaults_iff.mpr (.inl ⟨rfl, h⟩), rfl⟩⟩
        | definition hdefinitions hdefinition h =>
          have hinside := (mem_definition hdefinitions hdefinition).mpr h
          obtain ⟨_, ⟨⟩, hentry⟩ := hdefinitions
          exact ⟨_, hentry, mem_rootEntryFaults_iff.mpr
            ⟨rfl, _, mem_mapFaults_iff.mpr (.inr ⟨_, _, _, hdefinition, hinside, rfl⟩), rfl⟩⟩
  | _ =>
    constructor
    · intro h
      obtain rfl := List.mem_singleton.mp h
      exact .root (by simp)
    · intro h
      cases h with
      | root => exact List.mem_singleton_self _
      | definitions hdefinitions | definition hdefinitions =>
        obtain ⟨_, h, -⟩ := hdefinitions
        cases h

/-- The first of some paths in document order comes before all others. -/
theorem exists_paths_eq_append {value : Json} {faults : List Fault} {fault : Fault}
    (regular : value.Regular) (h : InOrder faults value) (hfirst : faults.head? = some fault) :
    ∃ before after, value.paths = before ++ fault.path :: after ∧
      ∀ path ∈ before, path ∉ faults.map Fault.path := by
  obtain ⟨later, rfl⟩ : ∃ later, faults = fault :: later := List.head?_eq_some_iff.mp hfirst
  obtain ⟨front, back, hpaths, hfront, hback⟩ := List.cons_sublist_iff.mp h
  obtain ⟨before, between, rfl⟩ := List.append_of_mem hfront
  rw [List.append_assoc, List.cons_append] at hpaths
  have hlater : (later.map Fault.path).Sublist (between ++ back) :=
    hback.trans (List.sublist_append_right between back)
  refine ⟨before, between ++ back, hpaths, fun path hbefore hmem => ?_⟩
  have hnodup := hpaths ▸ nodup_paths regular
  rw [List.map_cons] at hmem
  have hafter : path ∈ fault.path :: (between ++ back) := by
    rcases List.mem_cons.mp hmem with rfl | hmem
    · exact List.mem_cons_self
    · exact List.mem_cons_of_mem _ (hlater.subset hmem)
  exact List.disjoint_of_nodup_append hnodup hbefore hafter

/-- Whether a path is that of the first shallow fault of a document. -/
def FirstShallowFault (root : Json) (path : List Segment) : Prop :=
  root.ShallowFault path ∧ ∃ before after, root.paths = before ++ path :: after ∧
    ∀ earlier ∈ before, ¬ root.ShallowFault earlier

end Json

/-- **Lenient documents.** A text fails exactly when its value has a shallow fault, and its message
names the first one in document order. Whatever stands at or below a lenient place is none. -/
theorem parse_fails_at_first_shallow_fault {source : String} {root : Json}
    (hsource : Tree.ofJson source = root.tree) (regular : root.Regular) (hdepth : root.depth < 128)
    (byName : root.ByName) :
    ((∃ fault, Document.parse .json source = .error fault) ↔ ∃ path, root.ShallowFault path) ∧
    (∀ fault, Document.parse .json source = .error fault → ∃ path cause,
      root.FirstShallowFault path ∧
      fault.message? = some ("at path " ++ pathText path ++ " → " ++ cause) ∧
      (pathText path = "." ∨ pathText path = "definitions" ∨
        (∃ id, pathText path = "definitions." ++ id) ∨
        (∃ id, ∃ key : Key, pathText path = "definitions." ++ id ++ "." ++ key.text) ∨
        ∃ id, ∃ i : Nat,
          pathText path = "definitions." ++ id ++ ".required[" ++ toString i ++ "]")) ∧
    ∀ place path, LenientPlace place → root.ShallowFault path → ¬ place <+: path := by
  have houtcome := outcome_decode root.plainDocument_json (Nat.le_of_lt_succ hdepth)
  have hparse : ∀ fault, Document.parse .json source = .error fault ↔
      ∃ first, root.faults.head? = some first ∧ fault = .content .json first := by
    intro fault
    rw [Document.parse_eq_error_iff hsource]
    simp only [← houtcome.fault, fault?_eq_some_iff]
  have hmem : ∀ first, root.faults.head? = some first → root.ShallowFault first.path :=
    fun first hfirst => (Json.mem_faults_iff regular byName).mp
      (List.mem_map_of_mem (List.mem_of_mem_head? hfirst))
  refine ⟨?_, fun fault hfault => ?_, fun place path hplace => not_prefix_of_shallowFault hplace⟩
  · constructor
    · rintro ⟨fault, hfault⟩
      obtain ⟨first, hfirst, -⟩ := (hparse fault).mp hfault
      exact ⟨first.path, hmem first hfirst⟩
    · rintro ⟨path, hpath⟩
      have hne : root.faults ≠ [] := by
        rintro hnil
        have := (Json.mem_faults_iff regular byName).mpr hpath
        simp [hnil] at this
      exact ⟨_, (hparse _).mpr ⟨_, List.head?_eq_some_head hne, rfl⟩⟩
  · obtain ⟨first, hfirst, rfl⟩ := (hparse fault).mp hfault
    obtain ⟨before, after, hpaths, hbefore⟩ :=
      Json.exists_paths_eq_append regular (Json.faults_inOrder regular byName) hfirst
    have hshallow := hmem first hfirst
    refine ⟨first.path, first.cause.message .json, ⟨hshallow, before, after, hpaths,
      fun earlier hearlier h => hbefore earlier hearlier ((Json.mem_faults_iff regular byName).mpr h)⟩,
      rfl, pathText_of_shallowFault hshallow⟩

/-- A document with faults in two definitions. -/
def stray : Json :=
  .object [("definitions", .object [
    ("pet", .object [("type", .object []), ("required", .list [.text "a", .bool true]),
      ("title", .bool true)]),
    ("toy", .null)])]

/-- Its text. -/
def strayText : String :=
  "\x7b\"definitions\":\x7b\"pet\":\x7b\"type\":\x7b\x7d,\"required\":[\"a\",true]," ++
    "\"title\":true\x7d,\"toy\":null\x7d\x7d"

/-- It is rejected with the path of the first fault. -/
theorem stray_rejected : Tree.ofJson strayText = stray.tree ∧ stray.Regular ∧ stray.depth < 128 ∧
    stray.ByName ∧ stray.ShallowFault [.key "definitions", .key "toy"] ∧
    ∃ fault path cause, Document.parse .json strayText = .error fault ∧
      stray.FirstShallowFault path ∧
      fault.message? = some ("at path " ++ pathText path ++ " → " ++ cause) := by
  have htext : Tree.ofJson strayText = stray.tree := by cbv
  have regular : stray.Regular := by simp [stray]
  have hdepth : stray.depth < 128 := by decide
  have byName : stray.ByName := by
    refine ⟨by simp [stray], ?_⟩
    rintro definitions id definition ⟨_, ⟨⟩, hdefinitions⟩ ⟨entries, rfl, hdefinition⟩
    obtain ⟨-, ⟨⟩⟩ := Prod.mk.inj (List.mem_singleton.mp hdefinitions)
    simp only [List.mem_cons, Prod.mk.injEq, List.not_mem_nil, or_false] at hdefinition
    rcases hdefinition with ⟨-, rfl⟩ | ⟨-, rfl⟩ <;> simp
  have hshallow : stray.ShallowFault [.key "definitions", .key "toy"] :=
    .definition ⟨_, rfl, List.mem_cons_self⟩ ⟨_, rfl, List.mem_cons_of_mem _ List.mem_cons_self⟩
      (.shape (by simp))
  obtain ⟨hfails, hmessage, -⟩ := parse_fails_at_first_shallow_fault htext regular hdepth byName
  obtain ⟨fault, hfault⟩ := hfails.mpr ⟨_, hshallow⟩
  obtain ⟨path, cause, hfirst, htext', -⟩ := hmessage fault hfault
  exact ⟨htext, regular, hdepth, byName, hshallow, fault, path, cause, hfault, hfirst, htext'⟩

end SchemaCompiler
