import Mathlib.Data.List.Forall2
import Mathlib.Data.List.Permutation
import Mathlib.Logic.Relation
import SchemaCompiler.Generation
import SchemaCompiler.Proofs.View

/-!
# What the presentation of a document does not change

The keys of the root and of every node may come in any order, and keys that mean nothing may be added
or taken away, anywhere in a document. An edit of this kind (`Json.Edit`, `Json.DocumentEdit`) never
turns a node that is a schema into one that is not, or the other way round, and although it may change
what is kept of a node that is no schema, nothing of that is ever shown (`alike_of_edit`). So after any
number of edits a document is still accepted, with the same definitions (`presentation_independent`).

The maps of definitions and of properties have no such freedom: the order of their keys is that of what
is generated.
-/

namespace SchemaCompiler

/-! ### Edits -/

namespace Json

/-- One edit of a value that stands where a node is wanted, or under a key of a schema. -/
inductive Edit : Option Key → Json → Json → Prop where
  /-- The keys of a node come in another order. -/
  | reorder {entries others : List (String × Json)} (h : entries.Perm others) :
      Edit none (.object entries) (.object others)
  /-- A node gets a key that means nothing. -/
  | insert (before after : List (String × Json)) {name : String} (value : Json)
      (h : Key.ofText? name = none) :
      Edit none (.object (before ++ after)) (.object (before ++ (name, value) :: after))
  /-- A node loses a key that means nothing. -/
  | delete (before after : List (String × Json)) {name : String} (value : Json)
      (h : Key.ofText? name = none) :
      Edit none (.object (before ++ (name, value) :: after)) (.object (before ++ after))
  /-- What stands under a key of a node is edited. -/
  | field (before after : List (String × Json)) {key : Key} {value other : Json}
      (h : Edit (some key) value other) :
      Edit none (.object (before ++ (key.text, value) :: after))
        (.object (before ++ (key.text, other) :: after))
  /-- What stands at the place of a key is edited, in a node that is given as a list. -/
  | place (before after : List Json) {key : Key} {value other : Json}
      (hplace : Key.all[before.length]? = some key) (h : Edit (some key) value other) :
      Edit none (.list (before ++ value :: after)) (.list (before ++ other :: after))
  /-- A property is edited. -/
  | property (before after : List (String × Json)) {name : String} {value other : Json}
      (h : Edit none value other) :
      Edit (some .properties) (.object (before ++ (name, value) :: after))
        (.object (before ++ (name, other) :: after))
  /-- The node for all elements is edited. -/
  | element {entries others : List (String × Json)} (h : Edit none (.object entries) (.object others)) :
      Edit (some .items) (.object entries) (.object others)
  /-- The node for one place of a tuple is edited. -/
  | tuple (before after : List Json) {value other : Json} (h : Edit none value other) :
      Edit (some .items) (.list (before ++ value :: after)) (.list (before ++ other :: after))
  /-- A part of a composition is edited. -/
  | part (before after : List Json) {value other : Json} (h : Edit none value other) :
      Edit (some .allOf) (.list (before ++ value :: after)) (.list (before ++ other :: after))

/-- One edit of a document. -/
inductive DocumentEdit : Json → Json → Prop where
  /-- The keys of the root come in another order. -/
  | reorder {entries others : List (String × Json)} (h : entries.Perm others) :
      DocumentEdit (.object entries) (.object others)
  /-- The root gets a key that means nothing. -/
  | insert (before after : List (String × Json)) {name : String} (value : Json)
      (h : name ≠ definitionsKey) :
      DocumentEdit (.object (before ++ after)) (.object (before ++ (name, value) :: after))
  /-- The root loses a key that means nothing. -/
  | delete (before after : List (String × Json)) {name : String} (value : Json)
      (h : name ≠ definitionsKey) :
      DocumentEdit (.object (before ++ (name, value) :: after)) (.object (before ++ after))
  /-- A definition is edited. -/
  | definition (before after earlier later : List (String × Json)) {id : String} {value other : Json}
      (h : Edit none value other) :
      DocumentEdit
        (.object (before ++ (definitionsKey, .object (earlier ++ (id, value) :: later)) :: after))
        (.object (before ++ (definitionsKey, .object (earlier ++ (id, other) :: later)) :: after))
  /-- A definition is edited, in a root that is given as a list. -/
  | place (earlier later : List (String × Json)) (after : List Json) {id : String} {value other : Json}
      (h : Edit none value other) :
      DocumentEdit (.list (.object (earlier ++ (id, value) :: later) :: after))
        (.list (.object (earlier ++ (id, other) :: later) :: after))

end Json

/-! ### Fields with the same view -/

theorem forall₂_append_cons {α : Type} {R : α → α → Prop} (refl : ∀ x, R x x) (before after : List α)
    {x y : α} (h : R x y) : List.Forall₂ R (before ++ x :: after) (before ++ y :: after) := by
  induction before with
  | nil => exact .cons h (List.forall₂_same.mpr fun x _ => refl x)
  | cons first before ih => exact .cons (refl first) ih

/-- Whether two trees add the same under a key to schemas with the same view. -/
def TreeAlike (key : Key) (tree other : Tree) : Prop :=
  ∀ fields others : Schema, fields.view = others.view →
    (Node.setField? key fields tree).map Fields.view =
      (Node.setField? key others other).map Fields.view

theorem map_view_setField? (key : Key) (fields : Schema) {tree : Tree} (h : tree ≠ .null) :
    (Node.setField? key fields tree).map Fields.view =
      ((Node.setField? key {} tree).map Fields.view).map (fields.view.put key) := by
  rw [Node.setField?_of_ne_null key fields h, Option.map_map, Option.map_map]
  congr 1
  funext given
  exact Fields.view_put fields given key

theorem TreeAlike.refl (key : Key) (tree : Tree) : TreeAlike key tree tree := by
  intro fields others h
  by_cases hnull : tree = .null
  · rw [hnull, Node.setField?, Node.setField?, Option.map_some, Option.map_some, h]
  · rw [map_view_setField? key fields hnull, map_view_setField? key others hnull, h]

/-- Whether two entries have the same key and add the same under it. -/
def EntryAlike (entry other : Tree × Tree) : Prop :=
  entry.1 = other.1 ∧ ∀ key, Node.field? entry.1 = some key → TreeAlike key entry.2 other.2

theorem EntryAlike.refl (entry : Tree × Tree) : EntryAlike entry entry :=
  ⟨rfl, fun key _ => .refl key entry.2⟩

theorem map_view_fieldsOf? {entries others : List (Tree × Tree)}
    (h : List.Forall₂ EntryAlike entries others) {seen : List Key} {fields fields' : Schema}
    (hfields : fields.view = fields'.view) :
    (Node.fieldsOf? seen fields entries).map Fields.view =
      (Node.fieldsOf? seen fields' others).map Fields.view := by
  induction h generalizing seen fields fields' with
  | nil => rw [Node.fieldsOf?, Node.fieldsOf?, Option.map_some, Option.map_some, hfields]
  | @cons entry other entries others halike _ ih =>
    obtain ⟨tree, value⟩ := entry
    obtain ⟨_, value'⟩ := other
    obtain ⟨rfl, halike⟩ := halike
    cases hkey : Selected.ofTree tree with
    | misfit => rw [Node.fieldsOf?_cons_misfit hkey, Node.fieldsOf?_cons_misfit hkey]
    | nothing =>
      rw [Node.fieldsOf?_cons_nothing hkey, Node.fieldsOf?_cons_nothing hkey]
      exact ih hfields
    | field key =>
      have hset := halike key (by rw [Node.field?, hkey]) fields fields' hfields
      rw [Node.fieldsOf?, Node.fieldsOf?, hkey]
      by_cases hseen : key ∈ seen
      · simp [hseen]
      · simp only [hseen, if_false]
        cases hgiven : Node.setField? key fields value <;>
          cases hgiven' : Node.setField? key fields' value' <;>
          simp only [hgiven, hgiven', Option.map_some, Option.map_none, Option.some.injEq,
            reduceCtorEq] at hset ⊢
        exact ih hset

theorem map_view_positional? {keys : List Key} {items others : List Tree}
    (hlength : items.length = others.length)
    (h : ∀ (i : Nat) key item other, keys[i]? = some key → items[i]? = some item →
      others[i]? = some other → TreeAlike key item other)
    {fields fields' : Schema} (hfields : fields.view = fields'.view) :
    (Node.positional? keys fields items).map Fields.view =
      (Node.positional? keys fields' others).map Fields.view := by
  induction items generalizing keys others fields fields' with
  | nil =>
    obtain rfl := List.eq_nil_of_length_eq_zero hlength.symm
    cases keys <;> simp [Node.positional?, hfields]
  | cons item items ih =>
    cases others with
    | nil => cases hlength
    | cons other others =>
      cases keys with
      | nil => rfl
      | cons key keys =>
        have hset := h 0 key item other rfl rfl rfl fields fields' hfields
        have hlater := fun i => h (i + 1)
        rw [Node.positional?, Node.positional?]
        cases hgiven : Node.setField? key fields item <;>
          cases hgiven' : Node.setField? key fields' other <;>
          simp only [hgiven, hgiven', Option.map_some, Option.map_none, Option.some.injEq,
            reduceCtorEq] at hset ⊢
        exact ih (Nat.succ.inj hlength) hlater hset

/-! ### Keys in another order -/

/-- The order of the keys of a map makes no difference for the schema that it gives. -/
theorem fieldsOf?_perm {entries others : List (Tree × Tree)} (h : entries.Perm others) :
    Node.fieldsOf? [] {} entries = Node.fieldsOf? [] {} others := by
  have hselected : (Node.selectedFields entries).Perm (Node.selectedFields others) := h.filterMap _
  refine Option.ext fun schema => ?_
  rw [Node.fieldsOf?_eq_some_iff, Node.fieldsOf?_eq_some_iff, hselected.nodup_iff]
  simp only [h.mem_iff, hselected.mem_iff]

/-- A key that means nothing makes no difference. -/
theorem fieldsOf?_append_cons_nothing (before after : List (Tree × Tree)) {key : Tree} (value : Tree)
    (h : Selected.ofTree key = .nothing) :
    Node.fieldsOf? [] {} (before ++ (key, value) :: after) =
      Node.fieldsOf? [] {} (before ++ after) := by
  rw [fieldsOf?_perm List.perm_middle, Node.fieldsOf?_cons_nothing h]

/-! ### Edits keep the view -/

/-- Whether two values show the same: where a node is wanted, both are schemas with the same view or
neither is a schema, and under a key both add the same to a schema. -/
def Alike : Option Key → Json → Json → Prop
  | none, value, other => value.schema?.map Fields.view = other.schema?.map Fields.view
  | some key, value, other => TreeAlike key value.tree other.tree

theorem treeEntries_append_cons (before after : List (String × Json)) (name : String) (value : Json) :
    Json.treeEntries (before ++ (name, value) :: after) =
      Json.treeEntries before ++ (.text name, value.tree) :: Json.treeEntries after := by
  simp [Json.treeEntries_eq_map]

theorem alike_reorder {entries others : List (String × Json)} (h : entries.Perm others) :
    Alike none (.object entries) (.object others) := by
  rw [Alike, schema?_object, schema?_object, Json.treeEntries_eq_map, Json.treeEntries_eq_map,
    fieldsOf?_perm (h.map _)]

theorem alike_delete (before after : List (String × Json)) {name : String} (value : Json)
    (h : Key.ofText? name = none) :
    Alike none (.object (before ++ (name, value) :: after)) (.object (before ++ after)) := by
  have hselected : Selected.ofTree (.text name) = .nothing := by simp [Selected.ofTree, h]
  rw [Alike, schema?_object, schema?_object, treeEntries_append_cons,
    fieldsOf?_append_cons_nothing _ _ _ hselected]
  simp [Json.treeEntries_eq_map]

theorem alike_field (before after : List (String × Json)) {key : Key} {value other : Json}
    (h : Alike (some key) value other) :
    Alike none (.object (before ++ (key.text, value) :: after))
      (.object (before ++ (key.text, other) :: after)) := by
  have hentry : EntryAlike (.text key.text, value.tree) (.text key.text, other.tree) := by
    refine ⟨rfl, fun selected hselected => ?_⟩
    obtain rfl : key = selected := by simpa [Node.field?, Selected.ofTree] using hselected
    exact h
  rw [Alike, schema?_object, schema?_object, treeEntries_append_cons, treeEntries_append_cons]
  exact map_view_fieldsOf? (forall₂_append_cons EntryAlike.refl _ _ hentry) rfl

theorem alike_place (before after : List Json) {key : Key} {value other : Json}
    (hplace : Key.all[before.length]? = some key) (h : Alike (some key) value other) :
    Alike none (.list (before ++ value :: after)) (.list (before ++ other :: after)) := by
  rw [Alike, schema?_list, schema?_list, Json.treeItems_eq_map, Json.treeItems_eq_map, List.map_append,
    List.map_append, List.map_cons, List.map_cons]
  refine map_view_positional? (by simp) (fun i selected item item' hkey hitem hitem' => ?_) rfl
  rcases Nat.lt_trichotomy i (before.map Json.tree).length with hi | rfl | hi
  · rw [List.getElem?_append_left hi] at hitem hitem'
    obtain rfl := Option.some.inj (hitem.symm.trans hitem')
    exact .refl selected item
  · rw [List.getElem?_append_right (Nat.le_refl _), Nat.sub_self] at hitem hitem'
    obtain rfl := Option.some.inj hitem
    obtain rfl := Option.some.inj hitem'
    rw [List.length_map, hplace] at hkey
    obtain rfl := Option.some.inj hkey
    exact h
  · obtain ⟨n, hn⟩ : ∃ n, i - (before.map Json.tree).length = n + 1 :=
      Nat.exists_eq_succ_of_ne_zero (Nat.sub_ne_zero_of_lt hi)
    rw [List.getElem?_append_right (Nat.le_of_lt hi), hn, List.getElem?_cons_succ] at hitem hitem'
    obtain rfl := Option.some.inj (hitem.symm.trans hitem')
    exact .refl selected item

/-- Under a key that takes nodes, values whose nodes have the same views show the same. -/
theorem treeAlike_of_setField? {key : Key} {value other : Json} (hvalue : value ≠ .null)
    (hother : other ≠ .null)
    (h : (Node.setField? key {} value.tree).map Fields.view =
      (Node.setField? key {} other.tree).map Fields.view) : TreeAlike key value.tree other.tree := by
  intro fields fields' hfields
  rw [map_view_setField? key fields (Json.tree_ne_null hvalue),
    map_view_setField? key fields' (Json.tree_ne_null hother), h, hfields]

theorem setField?_properties_object (entries : List (String × Json)) :
    Node.setField? .properties {} (Json.object entries).tree =
      some { properties := some <|
        Entries.ofPairs (entries.map fun entry => (entry.1, entry.2.node)) } := by
  rw [Json.tree, Node.setField?, Json.ofEntries?_tree_eq_nodes, Option.map_some]

theorem setField?_allOf_list (items : List Json) : Node.setField? .allOf {} (Json.list items).tree =
    some { allOf := some (items.map Json.node) } := by
  rw [Json.tree, Node.setField?, Json.ofItems?_tree_eq_nodes, Option.map_some]

theorem setField?_items_list (items : List Json) : Node.setField? .items {} (Json.list items).tree =
    some { items := some (.tuple (items.map Json.node)) } := by
  rw [Json.tree, Node.setField?, Json.ofItems?_tree_eq_nodes]

theorem setField?_items_object (entries : List (String × Json)) :
    Node.setField? .items {} (Json.object entries).tree =
      some { items := some (.single (Json.object entries).node) } := by
  have hnode := Json.ofTree?_tree_eq_node (.object entries)
  rw [Json.tree, Node.ofTree?] at hnode
  rw [Json.tree, Node.setField?, hnode, Option.map_some]

/-- The views of nodes, of which one is replaced by another with the same view. -/
theorem map_view_append_cons (before after : List Json) {value other : Json}
    (h : value.node.view = other.node.view) :
    ((before ++ value :: after).map Json.node).map Node.view =
      ((before ++ other :: after).map Json.node).map Node.view := by
  simp [h]

theorem alike_property (before after : List (String × Json)) {name : String} {value other : Json}
    (h : value.node.view = other.node.view) :
    Alike (some .properties) (.object (before ++ (name, value) :: after))
      (.object (before ++ (name, other) :: after)) := by
  refine treeAlike_of_setField? nofun nofun ?_
  have hviews : ∀ entries : List (String × Json),
      (Entries.ofPairs (entries.map fun entry => (entry.1, entry.2.node))).map
          (fun entry => (entry.1, entry.2.view)) =
        Entries.ofPairs (entries.map fun entry => (entry.1, entry.2.node.view)) := fun entries => by
    rw [Table.map_ofPairs fun _ => Node.view, List.map_map]
    rfl
  rw [setField?_properties_object, setField?_properties_object]
  simp only [Option.map_some, Fields.view, Fields.map, hviews]
  simp [h]

theorem alike_element {entries others : List (String × Json)}
    (h : (Json.object entries).node.view = (Json.object others).node.view) :
    Alike (some .items) (.object entries) (.object others) := by
  refine treeAlike_of_setField? nofun nofun ?_
  rw [setField?_items_object, setField?_items_object]
  simp only [Option.map_some, Fields.view, Fields.map, Items.map, h]

theorem alike_tuple (before after : List Json) {value other : Json}
    (h : value.node.view = other.node.view) :
    Alike (some .items) (.list (before ++ value :: after)) (.list (before ++ other :: after)) := by
  refine treeAlike_of_setField? nofun nofun ?_
  rw [setField?_items_list, setField?_items_list]
  simp only [Option.map_some, Fields.view, Fields.map, Items.map, map_view_append_cons before after h]

theorem alike_part (before after : List Json) {value other : Json}
    (h : value.node.view = other.node.view) :
    Alike (some .allOf) (.list (before ++ value :: after)) (.list (before ++ other :: after)) := by
  refine treeAlike_of_setField? nofun nofun ?_
  rw [setField?_allOf_list, setField?_allOf_list]
  simp only [Option.map_some, Fields.view, Fields.map, map_view_append_cons before after h]

/-- **Edits.** An edit keeps what a value shows. -/
theorem alike_of_edit {key? : Option Key} {value other : Json} (h : Json.Edit key? value other) :
    Alike key? value other := by
  -- on the way from the place of the edit outwards
  induction h with
  | reorder h => exact alike_reorder h
  | insert before after value h => exact (alike_delete before after value h).symm
  | delete before after value h => exact alike_delete before after value h
  | field before after _ ih => exact alike_field before after ih
  | place before after hplace _ ih => exact alike_place before after hplace ih
  | property before after _ ih => exact alike_property before after (Json.view_node_congr ih)
  | element _ ih => exact alike_element (Json.view_node_congr ih)
  | tuple before after _ ih => exact alike_tuple before after (Json.view_node_congr ih)
  | part before after _ ih => exact alike_part before after (Json.view_node_congr ih)

/-! ### Documents -/

/-- The definitions of the document that a value is, if it is one. -/
def definitionsOf? (document? : Option Document) : Option (List Definition) :=
  document?.map Document.toDefinitions

theorem toDefinitions_ofList (pairs : List (String × Schema)) :
    (⟨Table.ofList pairs⟩ : Document).toDefinitions =
      (Entries.ofPairs (pairs.map fun pair => (pair.1, Definition.ofSchema pair.1 pair.2))).map
        Prod.snd := by
  rw [Document.toDefinitions, Table.entries_ofList, ← Table.map_ofPairs Definition.ofSchema,
    List.map_map]
  rfl

theorem map_mapM {α β γ : Type} (f : α → Option β) (g : β → γ) (xs : List α) :
    (xs.mapM f).map (List.map g) = xs.mapM fun x => (f x).map g := by
  induction xs with
  | nil => rfl
  | cons x xs ih =>
    rw [mapM_cons_eq_bind, mapM_cons_eq_bind, ← ih]
    cases f x with
    | none => rfl
    | some y => cases xs.mapM f <;> rfl

/-- The definitions of a map are those of its entries. -/
theorem definitionsOf?_object (entries : List (String × Json)) :
    definitionsOf? (Json.definitions? (.object entries)) =
      (entries.mapM fun entry : String × Json => (entry.2.schema?).map fun schema =>
        (entry.1, Definition.ofSchema entry.1 schema)).map
        fun pairs => (Entries.ofPairs pairs).map Prod.snd := by
  have hpairs := map_mapM (fun entry : String × Json => (entry.2.schema?).map (entry.1, ·))
    (fun pair => (pair.1, Definition.ofSchema pair.1 pair.2)) entries
  simp only [Option.map_map, Function.comp_def] at hpairs
  rw [← hpairs, definitionsOf?, Json.definitions?, Option.map_map, Option.map_map]
  congr 1
  funext pairs
  exact toDefinitions_ofList pairs

theorem mapM_append_cons {α β : Type} (f : α → Option β) (before after : List α) {x y : α}
    (h : f x = f y) : (before ++ x :: after).mapM f = (before ++ y :: after).mapM f := by
  induction before with
  | nil => rw [List.nil_append, List.nil_append, mapM_cons_eq_bind, mapM_cons_eq_bind, h]
  | cons first before ih =>
    rw [List.cons_append, List.cons_append, mapM_cons_eq_bind, mapM_cons_eq_bind, ih]

/-- A definition that is edited is as it was. -/
theorem definitionsOf?_definition (earlier later : List (String × Json)) {id : String}
    {value other : Json} (h : Json.Edit none value other) :
    definitionsOf? (Json.definitions? (.object (earlier ++ (id, value) :: later))) =
      definitionsOf? (Json.definitions? (.object (earlier ++ (id, other) :: later))) := by
  have halike : value.schema?.map Fields.view = other.schema?.map Fields.view := alike_of_edit h
  have hentry : (value.schema?).map (fun schema => (id, Definition.ofSchema id schema)) =
      (other.schema?).map fun schema => (id, Definition.ofSchema id schema) := by
    cases hvalue : value.schema? <;> cases hother : other.schema? <;>
      simp only [hvalue, hother, Option.map_some, Option.map_none, Option.some.injEq,
        reduceCtorEq] at halike ⊢
    rw [Definition.ofSchema_congr id halike]
  rw [definitionsOf?_object, definitionsOf?_object]
  congr 1
  exact mapM_append_cons _ earlier later hentry

/-- The document of the values that a root has under the key of the definitions. -/
def documentOf? : List Json → Option Document
  | [] => some {}
  | [value] => value.definitions?
  | _ :: _ :: _ => none

theorem root?_some (document : Document) (entries : List (String × Json)) :
    Json.root? (some document) entries =
      if (entries.filter (·.1 = definitionsKey)).isEmpty then some document else none := by
  induction entries with
  | nil => rfl
  | cons entry entries ih =>
    obtain ⟨name, value⟩ := entry
    rw [Json.root?]
    by_cases h : name = definitionsKey
    · simp [h]
    · rw [if_neg h, ih, List.filter_cons_of_neg (by simpa using h)]

/-- A root is a document that has its definitions under at most one key. -/
theorem root?_none (entries : List (String × Json)) : Json.root? none entries =
    documentOf? ((entries.filter (·.1 = definitionsKey)).map Prod.snd) := by
  induction entries with
  | nil => rfl
  | cons entry entries ih =>
    obtain ⟨name, value⟩ := entry
    rw [Json.root?]
    by_cases h : name = definitionsKey
    · subst h
      rw [if_pos rfl, List.filter_cons_of_pos (by simp), List.map_cons]
      simp only [root?_some]
      cases entries.filter (·.1 = definitionsKey) with
      | nil => simp [documentOf?]
      | cons first later => simp [documentOf?]
    · rw [if_neg h, ih, List.filter_cons_of_neg (by simpa using h)]

theorem documentOf?_perm {values others : List Json} (h : values.Perm others) :
    documentOf? values = documentOf? others := by
  match values, others, h with
  | [], others, h => rw [List.nil_perm.mp h]
  | [value], others, h => rw [List.singleton_perm.mp h]
  | first :: second :: values, others, h =>
    match others, h.length_eq with
    | _ :: _ :: _, _ => rfl

theorem definitionsOf?_append_cons (before after : List Json) {value other : Json}
    (h : definitionsOf? value.definitions? = definitionsOf? other.definitions?) :
    definitionsOf? (documentOf? (before ++ value :: after)) =
      definitionsOf? (documentOf? (before ++ other :: after)) := by
  match before, after with
  | [], [] => exact h
  | [], _ :: _ => rfl
  | [_], _ => rfl
  | _ :: _ :: _, _ => rfl

/-- **One edit.** An edit of a document keeps its definitions, and whether it has any. -/
theorem definitionsOf?_of_edit {root other : Json} (h : Json.DocumentEdit root other) :
    definitionsOf? root.document? = definitionsOf? other.document? := by
  have hdelete : ∀ (before after : List (String × Json)) {name : String} (value : Json),
      name ≠ definitionsKey → Json.root? none (before ++ (name, value) :: after) =
        Json.root? none (before ++ after) := fun before after name value hname => by
    simp [root?_none, hname]
  cases h with
  | reorder h =>
    rw [Json.document?, Json.document?, root?_none, root?_none,
      documentOf?_perm ((h.filter _).map _)]
  | insert before after value h => rw [Json.document?, Json.document?, hdelete before after value h]
  | delete before after value h => rw [Json.document?, Json.document?, hdelete before after value h]
  | definition before after earlier later h =>
    rw [Json.document?, Json.document?, root?_none, root?_none]
    simp only [List.filter_append, List.filter_cons_of_pos, decide_true, List.map_append, List.map_cons]
    exact definitionsOf?_append_cons _ _ (definitionsOf?_definition earlier later h)
  | place earlier later after h =>
    cases after with
    | nil => exact definitionsOf?_definition earlier later h
    | cons => rfl

/-- Any number of edits keeps the definitions of a document. -/
theorem definitionsOf?_of_edits {root other : Json}
    (h : Relation.ReflTransGen Json.DocumentEdit root other) :
    definitionsOf? root.document? = definitionsOf? other.document? := by
  induction h with
  | refl => rfl
  | tail _ hedit ih => rw [ih, definitionsOf?_of_edit hedit]

/-- The definitions that a text gives are those of the document that its value is. -/
theorem definitionsOf?_parse {source : String} {root : Json} (hsource : Tree.ofJson source = root.tree)
    (hdepth : root.depth < 128) :
    definitionsOf? (Document.parse .json source).toOption = definitionsOf? root.document? := by
  have houtcome := outcome_decode root.plainDocument_json (Nat.le_of_lt_succ hdepth)
  rw [Document.toOption_parse hsource, houtcome.value]

/-- **Presentation independence.** Of two texts whose values differ by edits alone, both are accepted or
neither is, with the same definitions and whatever is generated from them. -/
theorem presentation_independent {root other : Json} {source otherSource : String}
    (hedits : Relation.ReflTransGen Json.DocumentEdit root other)
    (hsource : Tree.ofJson source = root.tree) (hdepth : root.depth < 128)
    (hother : Tree.ofJson otherSource = other.tree) (hdepth' : other.depth < 128) :
    ((∃ document, Document.parse .json source = .ok document) ↔
      ∃ document, Document.parse .json otherSource = .ok document) ∧
    ∀ document document', Document.parse .json source = .ok document →
      Document.parse .json otherSource = .ok document' →
      document.toDefinitions = document'.toDefinitions ∧
      ∀ settings, Generation.ofDocument settings document =
        Generation.ofDocument settings document' := by
  have hsame : definitionsOf? (Document.parse .json source).toOption =
      definitionsOf? (Document.parse .json otherSource).toOption := by
    rw [definitionsOf?_parse hsource hdepth, definitionsOf?_parse hother hdepth',
      definitionsOf?_of_edits hedits]
  refine ⟨?_, fun document document' h h' => ?_⟩
  · cases hparse : Document.parse .json source <;>
      cases hparse' : Document.parse .json otherSource <;>
      simp_all [definitionsOf?, Except.toOption]
  · have hdefinitions : document.toDefinitions = document'.toDefinitions := by
      simpa [definitionsOf?, Except.toOption, h, h'] using hsame
    exact ⟨hdefinitions, fun settings => by
      rw [Generation.ofDocument, Generation.ofDocument, hdefinitions]⟩

/-- A property of a definition, with more keys or fewer. -/
def nameNode (more : List (String × Json)) : Json :=
  .object (more ++ [("type", .text "string")])

/-- A document as it is written first. -/
def plainShelf : Json :=
  .object [("definitions", .object [("book", .object [("type", .text "object"),
    ("properties", .object [("name", nameNode [])])])])]

/-- The document with keys that mean nothing, and others in another order. -/
def ornateShelf : Json :=
  .object [("made", .bool true), ("definitions", .object [("book",
    .object [("properties", .object [("name", nameNode [("format", .text "title")])]),
      ("type", .text "object")])])]

/-- The text of the first. -/
def plainShelfText : String :=
  "\x7b\"definitions\":\x7b\"book\":\x7b\"type\":\"object\"," ++
    "\"properties\":\x7b\"name\":\x7b\"type\":\"string\"\x7d\x7d\x7d\x7d\x7d"

/-- The text of the second. -/
def ornateShelfText : String :=
  "\x7b\"made\":true,\"definitions\":\x7b\"book\":\x7b\"properties\":\x7b\"name\":" ++
    "\x7b\"format\":\"title\",\"type\":\"string\"\x7d\x7d,\"type\":\"object\"\x7d\x7d\x7d"

/-- Three edits lead from the one to the other. -/
theorem edits_plainShelf : Relation.ReflTransGen Json.DocumentEdit plainShelf ornateShelf := by
  refine .tail (.tail (.single (.insert [] _ (.bool true) (by decide : "made" ≠ definitionsKey)))
    (.definition [_] [] [] [] (.reorder (.swap _ _ [])))) ?_
  exact .definition [_] [] [] [] (.field [] _ (.property [] []
    (.insert [] _ _ (by decide : Key.ofText? "format" = none))))

/-- So both texts give the same definitions. -/
theorem shelves_agree : ∃ document document', Document.parse .json plainShelfText = .ok document ∧
    Document.parse .json ornateShelfText = .ok document' ∧
    document.toDefinitions = document'.toDefinitions := by
  have hplain : Tree.ofJson plainShelfText = plainShelf.tree := by cbv
  have hornate : Tree.ofJson ornateShelfText = ornateShelf.tree := by cbv
  obtain ⟨haccepted, hsame⟩ := presentation_independent edits_plainShelf hplain (by decide) hornate
    (by decide)
  have hread : (Document.decode .json plainShelf.tree).toOption.isSome = true := by cbv
  rw [← Document.toOption_parse hplain] at hread
  cases hparse : Document.parse .json plainShelfText with
  | error fault => simp [hparse, Except.toOption] at hread
  | ok document =>
    obtain ⟨document', hparse'⟩ := haccepted.mp ⟨document, hparse⟩
    exact ⟨document, document', rfl, hparse', (hsame _ _ hparse hparse').1⟩

end SchemaCompiler
