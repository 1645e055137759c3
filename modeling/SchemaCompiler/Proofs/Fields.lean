import Mathlib.Data.List.Forall2
import SchemaCompiler.Proofs.Value

/-!
# Fields of a schema

A nested node is read field by field, and each field only ever sets its own slot
(`setField?_of_ne_null`). So what a map or a list gives for a schema can be said slot by slot, without
regard to the order in which the fields come: `fieldsOf?_eq_some_iff` for the keys of a map,
`positional?_eq_some_iff` for the places of a list.
-/

namespace SchemaCompiler

/-- What one field of a schema holds. -/
inductive Slot (α : Type) where
  /-- A text. -/
  | text (value : Option String)
  /-- Any JSON value. -/
  | json (value : Option Json)
  /-- A list of texts. -/
  | texts (value : Option (List String))
  /-- Nodes with names. -/
  | nodes (value : Option (List (String × α)))
  /-- The elements of an array. -/
  | items (value : Option (Items α))
  /-- The parts of a composition. -/
  | parts (value : Option (List α))

namespace Fields

variable {α : Type}

/-- What the field with a key holds. -/
def slot (fields : Fields α) : Key → Slot α
  | .reference => .text fields.reference
  | .type => .json fields.type
  | .title => .text fields.title
  | .description => .text fields.description
  | .required => .texts fields.required
  | .properties => .nodes fields.properties
  | .items => .items fields.items
  | .allOf => .parts fields.allOf

/-- Fields of which one is replaced by that of others. -/
def put (fields : Fields α) (key : Key) (given : Fields α) : Fields α :=
  match key with
  | .reference => { fields with reference := given.reference }
  | .type => { fields with type := given.type }
  | .title => { fields with title := given.title }
  | .description => { fields with description := given.description }
  | .required => { fields with required := given.required }
  | .properties => { fields with properties := given.properties }
  | .items => { fields with items := given.items }
  | .allOf => { fields with allOf := given.allOf }

/-- Fields that hold the same under every key are the same. -/
theorem ext_slot {fields others : Fields α} (h : ∀ key, fields.slot key = others.slot key) :
    fields = others := by
  cases fields
  cases others
  have := h .reference
  have := h .type
  have := h .title
  have := h .description
  have := h .required
  have := h .properties
  have := h .items
  have := h .allOf
  simp_all only [slot, Slot.text.injEq, Slot.json.injEq, Slot.texts.injEq, Slot.nodes.injEq,
    Slot.items.injEq, Slot.parts.injEq]

@[simp] theorem slot_put (fields given : Fields α) (key : Key) :
    (fields.put key given).slot key = given.slot key := by
  cases key <;> rfl

theorem slot_put_of_ne (fields given : Fields α) {key other : Key} (h : other ≠ key) :
    (fields.put key given).slot other = fields.slot other := by
  cases key <;> cases other <;> first | rfl | contradiction

theorem put_eq_self {fields given : Fields α} {key : Key} (h : fields.slot key = given.slot key) :
    fields.put key given = fields := by
  refine ext_slot fun other => ?_
  by_cases hne : other = key
  · rw [hne, slot_put, h]
  · rw [slot_put_of_ne _ _ hne]

end Fields

/-! ### Keys -/

namespace Key

@[simp] theorem ofText?_text (key : Key) : ofText? key.text = some key := by
  cases key <;> decide

theorem text_of_ofText? {name : String} {key : Key} (h : ofText? name = some key) :
    name = key.text := by
  have := List.find?_some h
  simpa [eq_comm] using this

theorem text_injective : Function.Injective text := fun key other h => by
  simpa using congrArg ofText? h

theorem nodup_all : all.Nodup := by decide

theorem mem_all (key : Key) : key ∈ all := by
  cases key <;> decide

end Key

namespace Node

/-! ### One field -/

/-- A field that is given sets its own slot and no other. -/
theorem setField?_of_ne_null (key : Key) (fields : Schema) {tree : Tree} (h : tree ≠ .null) :
    setField? key fields tree = (setField? key {} tree).map (fields.put key) := by
  cases tree <;> cases key <;> simp [setField?, Fields.put, Function.comp_def] at h ⊢
  -- left is the list under `items`, which is a tuple or a single node
  split <;> simp [Fields.put, Function.comp_def]

/-- A field that is given for the first time sets its own slot and no other. -/
theorem setField?_of_fresh {key : Key} {fields : Schema} (tree : Tree)
    (fresh : fields.slot key = ({} : Schema).slot key) :
    setField? key fields tree = (setField? key {} tree).map (fields.put key) := by
  by_cases h : tree = .null
  · rw [h, setField?, setField?, Option.map_some, Fields.put_eq_self fresh]
  · exact setField?_of_ne_null key fields h

/-! ### The keys of a map -/

/-- The field that a key selects, if it selects one. -/
def field? (key : Tree) : Option Key :=
  match Selected.ofTree key with
  | .field key => some key
  | .nothing | .misfit => none

/-- The fields that the keys of a map select. -/
def selectedFields (entries : List (Tree × Tree)) : List Key :=
  entries.filterMap (field? ·.1)

/-- Whether a schema holds under a key what a tree gives for it. -/
def Holds (schema : Schema) (key : Key) (tree : Tree) : Prop :=
  ∃ given, setField? key {} tree = some given ∧ schema.slot key = given.slot key

theorem fieldsOf?_cons_nothing {seen : List Key} {fields : Schema} {key value : Tree}
    {entries : List (Tree × Tree)} (h : Selected.ofTree key = .nothing) :
    fieldsOf? seen fields ((key, value) :: entries) = fieldsOf? seen fields entries := by
  rw [fieldsOf?, h]

theorem fieldsOf?_cons_misfit {seen : List Key} {fields : Schema} {key value : Tree}
    {entries : List (Tree × Tree)} (h : Selected.ofTree key = .misfit) :
    fieldsOf? seen fields ((key, value) :: entries) = none := by
  rw [fieldsOf?, h]

theorem fieldsOf?_cons_field {seen : List Key} {fields : Schema} {key : Key} {tree value : Tree}
    {entries : List (Tree × Tree)} (h : Selected.ofTree tree = .field key) (hseen : key ∉ seen)
    (fresh : fields.slot key = ({} : Schema).slot key) :
    fieldsOf? seen fields ((tree, value) :: entries) =
      (setField? key {} value).bind fun given =>
        fieldsOf? (key :: seen) (fields.put key given) entries := by
  rw [fieldsOf?, h]
  simp only [hseen, if_false, setField?_of_fresh value fresh]
  cases setField? key {} value <;> rfl

/-- The slots that are still free after one of them has been set. -/
theorem fresh_put {seen : List Key} {fields given : Schema} {key : Key}
    (fresh : ∀ other ∉ seen, fields.slot other = ({} : Schema).slot other) :
    ∀ other ∉ key :: seen, (fields.put key given).slot other = ({} : Schema).slot other := by
  intro other hother
  rw [List.mem_cons, not_or] at hother
  rw [Fields.slot_put_of_ne _ _ hother.1, fresh other hother.2]

/-- After one field has been set the other slots are as before, and its own is as given. -/
theorem slots_put_iff {fields given schema : Schema} {key : Key} {keys : List Key}
    (hkey : key ∉ keys) :
    (∀ other ∉ keys, schema.slot other = (fields.put key given).slot other) ↔
      schema.slot key = given.slot key ∧
        ∀ other ∉ key :: keys, schema.slot other = fields.slot other := by
  constructor
  · intro h
    refine ⟨by rw [h key hkey, Fields.slot_put], fun other hother => ?_⟩
    rw [List.mem_cons, not_or] at hother
    rw [h other hother.2, Fields.slot_put_of_ne _ _ hother.1]
  · rintro ⟨hslot, h⟩ other hother
    by_cases hne : other = key
    · rw [hne, hslot, Fields.slot_put]
    · rw [Fields.slot_put_of_ne _ _ hne, h other (List.not_mem_cons_of_ne_of_not_mem hne hother)]

/-- What a map adds to the fields that are given already, slot by slot. -/
theorem fieldsOf?_eq_some_iff_of_fresh {seen : List Key} {fields schema : Schema}
    {entries : List (Tree × Tree)}
    (fresh : ∀ key ∉ seen, fields.slot key = ({} : Schema).slot key) :
    fieldsOf? seen fields entries = some schema ↔
      (∀ entry ∈ entries, Selected.ofTree entry.1 ≠ .misfit) ∧
      ((selectedFields entries).Nodup ∧ ∀ key ∈ selectedFields entries, key ∉ seen) ∧
      (∀ entry ∈ entries, ∀ key, field? entry.1 = some key → Holds schema key entry.2) ∧
      ∀ key ∉ selectedFields entries, schema.slot key = fields.slot key := by
  -- on the entries, each of which leaves one slot fewer to the next
  induction entries generalizing seen fields with
  | nil =>
    simp only [fieldsOf?, selectedFields, List.filterMap_nil, Option.some.injEq]
    constructor
    · rintro rfl
      simp
    · exact fun h => (Fields.ext_slot fun key => h.2.2.2 key (by simp)).symm
  | cons entry entries ih =>
    obtain ⟨tree, value⟩ := entry
    cases hkey : Selected.ofTree tree with
    | misfit => simp [fieldsOf?_cons_misfit hkey, hkey]
    | nothing =>
      have hfield : field? tree = none := by rw [field?, hkey]
      simp [fieldsOf?_cons_nothing hkey, ih fresh, selectedFields, hfield, hkey]
    | field key =>
      have hfield : field? tree = some key := by rw [field?, hkey]
      have hselected : selectedFields ((tree, value) :: entries) = key :: selectedFields entries :=
        List.filterMap_cons_some hfield
      have hhead : (∀ entry ∈ (tree, value) :: entries, ∀ key, field? entry.1 = some key →
          Holds schema key entry.2) ↔ Holds schema key value ∧
            ∀ entry ∈ entries, ∀ key, field? entry.1 = some key → Holds schema key entry.2 := by
        simp [hfield]
      rw [hhead, hselected]
      by_cases hseen : key ∈ seen
      · simp [fieldsOf?, hkey, hseen]
      rw [fieldsOf?_cons_field hkey hseen (fresh key hseen), Option.bind_eq_some_iff]
      simp only [ih (fresh_put fresh)]
      simp only [List.nodup_cons, List.forall_mem_cons, hkey, ne_eq, reduceCtorEq,
        not_false_eq_true, true_and]
      constructor
      · rintro ⟨given, hset, hfit, ⟨hnodup, hfree⟩, hholds, habsent⟩
        have hkey' : key ∉ selectedFields entries := fun hmem => hfree key hmem List.mem_cons_self
        obtain ⟨hslot, habsent⟩ := (slots_put_iff hkey').mp habsent
        exact ⟨hfit, ⟨⟨hkey', hnodup⟩, hseen, fun other hother hmem =>
          hfree other hother (List.mem_cons_of_mem _ hmem)⟩, ⟨⟨given, hset, hslot⟩, hholds⟩, habsent⟩
      · rintro ⟨hfit, ⟨⟨hkey', hnodup⟩, -, hfree⟩, ⟨⟨given, hset, hslot⟩, hholds⟩, habsent⟩
        exact ⟨given, hset, hfit, ⟨hnodup, fun other hother =>
          List.not_mem_cons_of_ne_of_not_mem (fun e => hkey' (e ▸ hother)) (hfree other hother)⟩,
          hholds, (slots_put_iff hkey').mpr ⟨hslot, habsent⟩⟩

/-- What a map gives for a schema, slot by slot: no key may be a misfit or select a field twice. -/
theorem fieldsOf?_eq_some_iff {schema : Schema} {entries : List (Tree × Tree)} :
    fieldsOf? [] {} entries = some schema ↔
      (∀ entry ∈ entries, Selected.ofTree entry.1 ≠ .misfit) ∧ (selectedFields entries).Nodup ∧
      (∀ entry ∈ entries, ∀ key, field? entry.1 = some key → Holds schema key entry.2) ∧
      ∀ key ∉ selectedFields entries, schema.slot key = ({} : Schema).slot key := by
  have fresh : ∀ key ∉ ([] : List Key), ({} : Schema).slot key = ({} : Schema).slot key :=
    fun _ _ => rfl
  rw [fieldsOf?_eq_some_iff_of_fresh fresh]
  simp

/-! ### The places of a list -/

/-- What a list adds to the fields that are given already, place by place. -/
theorem positional?_eq_some_iff_of_fresh {keys : List Key} {fields schema : Schema}
    {items : List Tree} (distinct : keys.Nodup)
    (fresh : ∀ key ∈ keys, fields.slot key = ({} : Schema).slot key) :
    positional? keys fields items = some schema ↔
      List.Forall₂ (Holds schema) keys items ∧
        ∀ key ∉ keys, schema.slot key = fields.slot key := by
  induction items generalizing keys fields with
  | nil =>
    cases keys with
    | nil =>
      simp only [positional?, List.isEmpty_nil, if_true, Option.some.injEq, List.Forall₂.nil,
        true_and, List.not_mem_nil, not_false_eq_true, true_implies]
      exact ⟨fun h _ => h ▸ rfl, fun h => (Fields.ext_slot h).symm⟩
    | cons key keys => simp [positional?]
  | cons item items ih =>
    cases keys with
    | nil => simp [positional?]
    | cons key keys =>
      obtain ⟨hkey, distinct⟩ := List.nodup_cons.mp distinct
      obtain ⟨hfresh, fresh⟩ := List.forall_mem_cons.mp fresh
      have hne : ∀ {other}, other ∈ keys → other ≠ key := fun hother e => hkey (e ▸ hother)
      rw [positional?, setField?_of_fresh item hfresh, List.forall₂_cons]
      cases hset : setField? key {} item with
      | none => simp [Holds, hset]
      | some given =>
        simp only [Option.map_some, Holds, hset, Option.some.injEq, exists_eq_left']
        rw [ih distinct fun other hother => by
          rw [Fields.slot_put_of_ne _ _ (hne hother), fresh other hother],
          slots_put_iff hkey, and_left_comm, and_assoc]

/-- What a list gives for a schema, place by place. -/
theorem positional?_eq_some_iff {schema : Schema} {items : List Tree} :
    positional? Key.all {} items = some schema ↔ List.Forall₂ (Holds schema) Key.all items := by
  rw [positional?_eq_some_iff_of_fresh Key.nodup_all fun _ _ => rfl]
  exact and_iff_left fun key hkey => absurd (Key.mem_all key) hkey

theorem exists_positional?_of_fresh {keys : List Key} {fields : Schema} {items : List Tree}
    (distinct : keys.Nodup) (fresh : ∀ key ∈ keys, fields.slot key = ({} : Schema).slot key)
    (given : List.Forall₂ (fun key item => ∃ given, setField? key {} item = some given) keys items) :
    ∃ schema, positional? keys fields items = some schema := by
  induction given generalizing fields with
  | nil => exact ⟨fields, rfl⟩
  | @cons key item keys items hgiven _ ih =>
    obtain ⟨hkey, distinct⟩ := List.nodup_cons.mp distinct
    obtain ⟨hfresh, fresh⟩ := List.forall_mem_cons.mp fresh
    obtain ⟨first, hset⟩ := hgiven
    rw [positional?, setField?_of_fresh item hfresh, hset]
    refine ih distinct fun other hother => ?_
    have hne : other ≠ key := fun e => hkey (e ▸ hother)
    rw [Fields.slot_put_of_ne _ _ hne, fresh other hother]

/-- A list is a schema when it has one item for each field, in order, and each fits its field. -/
theorem exists_positional?_iff {items : List Tree} :
    (∃ schema, positional? Key.all {} items = some schema) ↔
      List.Forall₂ (fun key item => ∃ given, setField? key {} item = some given) Key.all items := by
  constructor
  · rintro ⟨schema, h⟩
    exact (positional?_eq_some_iff.mp h).imp fun _ _ hholds =>
      hholds.imp fun _ hgiven => hgiven.1
  · exact exists_positional?_of_fresh Key.nodup_all fun _ _ => rfl

end Node

end SchemaCompiler
