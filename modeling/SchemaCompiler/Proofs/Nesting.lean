import SchemaCompiler.Proofs.Document

/-!
# Nodes inside of schemas

A step leads from a schema to a node inside of it: to a property, to the elements, to a place of a tuple
or to a part of a composition (`Fields.child?`), and the same step leads through the tree of the text
(`Tree.child?`). Whatever the tree, a schema that is read from it has at each step the node that is read
from the tree at the step. This holds of definitions, which are held to their types
(`nests_of_decodeSchema`), and of the nested nodes that are schemas (`nests_of_ofTree?`), so it holds
after any number of steps (`nests_of_at?`).
-/

namespace SchemaCompiler

open Traversal

/-! ### Steps -/

/-- A step from a schema to a node inside of it. -/
inductive Step where
  /-- To the property with a name. -/
  | property (name : String)
  /-- To the elements of an array. -/
  | element
  /-- To a place of a tuple. -/
  | place (i : Nat)
  /-- To a part of a composition. -/
  | part (i : Nat)

/-- The node to which a step leads from a schema. -/
def Fields.child? (schema : Schema) : Step → Option Node
  | .property name => schema.properties.bind (·.lookup name)
  | .element =>
    match schema.items with
    | some (.single node) => some node
    | _ => none
  | .place i =>
    match schema.items with
    | some (.tuple nodes) => nodes[i]?
    | _ => none
  | .part i => schema.allOf.bind (·[i]?)

/-- The schema to which steps lead from a schema. -/
def Fields.at? (schema : Schema) : List Step → Option Schema
  | [] => some schema
  | step :: steps => ((child? schema step).bind Node.schema?).bind (at? · steps)

namespace Tree

/-- The text that a tree is, if it is one. -/
def text? (tree : Tree) : Option String :=
  match tree.untagged with
  | .text s => some s
  | _ => none

/-- The value of the last entry of a map with a name. -/
def valueOf? (tree : Tree) (name : String) : Option Tree :=
  match tree.untagged with
  | .map entries => (entries.reverse.find? fun entry => entry.1.text? = some name).map Prod.snd
  | _ => none

/-- An item of a list. -/
def item? (tree : Tree) (i : Nat) : Option Tree :=
  match tree.untagged with
  | .list items => items[i]?
  | _ => none

/-- What stands under a key of a schema: the value of its text in a map, and in a list the item at the
place of the key. -/
def field? (tree : Tree) (key : Key) : Option Tree :=
  match tree.untagged with
  | .map _ => tree.valueOf? key.text
  | _ => tree.item? (Key.all.idxOf key)

/-- The tree to which a step leads from the tree of a schema. -/
def child? (tree : Tree) : Step → Option Tree
  | .property name => (tree.field? .properties).bind (·.valueOf? name)
  | .element =>
    match tree.field? .items with
    | none | some .null | some (.list _) => none
    | some other => some other
  | .place i => (tree.field? .items).bind (·.item? i)
  | .part i => (tree.field? .allOf).bind (·.item? i)

/-- The tree to which steps lead from the tree of a schema. -/
def at? (tree : Tree) : List Step → Option Tree
  | [] => some tree
  | step :: steps => (tree.child? step).bind (at? · steps)

/-- The tree of a definition of a document. -/
def definition? (tree : Tree) (id : String) : Option Tree :=
  let definitions? :=
    match tree.untagged with
    | .map _ => tree.valueOf? definitionsKey
    | _ => tree.item? 0
  definitions?.bind (·.valueOf? id)

end Tree

/-! ### Reading lists and maps -/

theorem eq_ok_of_within {α : Type} {segment : Segment} {part : Tree} {result : Except Fault α}
    {value : α} (h : within segment part result = .ok value) : result = .ok value := by
  unfold within at h
  split at h
  · cases h
  · cases result with
    | ok value' => exact h
    | error fault => cases h

theorem eq_some_of_lenient {α : Type} {choice : Choice} {shape? : Tree → Option α} {room : Nat}
    {tree : Tree} {value : α} (h : lenient choice shape? room tree = .ok value) : shape? tree = some value := by
  unfold lenient at h
  split at h
  · cases h
  · split at h
    · next hshape =>
      cases h
      exact hshape
    · cases h

theorem text?_eq_of_decodeKey {wanted : Wanted} {key : Tree} {name : String}
    (h : decodeKey wanted key = .ok name) : key.text? = some name := by
  unfold decodeKey at h
  unfold Tree.text?
  split at h <;> simp_all

theorem decodeItems_eq_ok {α : Type} {decode : Tree → Except Fault α} {i : Nat} {items : List Tree}
    {values : List α} (h : decodeItems decode i items = .ok values) :
    List.Forall₂ (fun item value => decode item = .ok value) items values := by
  induction items generalizing i values with
  | nil =>
    cases h
    exact .nil
  | cons item items ih =>
    obtain ⟨value, hitem, h⟩ := bind_eq_ok_iff.mp h
    obtain ⟨later, hitems, h⟩ := bind_eq_ok_iff.mp h
    cases h
    exact .cons (eq_ok_of_within hitem) (ih hitems)

/-- Whether the value of an entry is read as what a pair holds, under the same name. -/
def Reads {α : Type} (read : Tree → α → Prop) (entry : Tree × Tree) (pair : String × α) : Prop :=
  entry.1.text? = some pair.1 ∧ read entry.2 pair.2

theorem decodeEntries_eq_ok {α : Type} {decode : Tree → Except Fault α} {entries : List (Tree × Tree)}
    {pairs : List (String × α)} (h : decodeEntries decode entries = .ok pairs) :
    List.Forall₂ (Reads fun tree value => decode tree = .ok value) entries pairs := by
  induction entries generalizing pairs with
  | nil =>
    cases h
    exact .nil
  | cons entry entries ih =>
    obtain ⟨name, hkey, h⟩ := bind_eq_ok_iff.mp h
    obtain ⟨value, hvalue, h⟩ := bind_eq_ok_iff.mp h
    obtain ⟨later, hlater, h⟩ := bind_eq_ok_iff.mp h
    cases h
    exact .cons ⟨text?_eq_of_decodeKey hkey, eq_ok_of_within hvalue⟩ (ih hlater)

theorem eq_ok_of_enter {α : Type} {room : Nat} {result : Nat → Except Fault α} {value : α}
    (h : enter room result = .ok value) : ∃ room', result room' = .ok value := by
  cases room with
  | zero => cases h
  | succ room => exact ⟨room, h⟩

theorem decodeList_eq_ok {α : Type} {format : Format} {decode : Nat → Tree → Except Fault α}
    {room : Nat} {tree : Tree} {items : List Tree} {values : List α}
    (htree : tree.untagged = .list items)
    (h : decodeList format decode room tree = .ok values) :
    ∃ room, List.Forall₂ (fun item value => decode room item = .ok value) items values := by
  simp only [decodeList, htree] at h
  exact (eq_ok_of_enter h).imp fun _ => decodeItems_eq_ok

theorem decodeMap_eq_ok {α : Type} {format : Format} {decode : Nat → Tree → Except Fault α} {room : Nat}
    {tree : Tree} {entries : List (Tree × Tree)} {pairs : List (String × α)}
    (htree : tree.untagged = .map entries) (h : decodeMap format decode room tree = .ok pairs) :
    ∃ room, List.Forall₂ (Reads fun tree value => decode room tree = .ok value) entries pairs := by
  simp only [decodeMap, htree] at h
  exact (eq_ok_of_enter h).imp fun _ => decodeEntries_eq_ok

theorem decodeOption_eq_ok {α : Type} {decode : Tree → Except Fault α} {tree : Tree} {value? : Option α}
    (hnull : tree ≠ .null) (h : decodeOption decode tree = .ok value?) :
    ∃ value, decode tree = .ok value ∧ value? = some value := by
  rw [decodeOption_of_ne_null _ hnull] at h
  obtain ⟨value, hvalue, heq⟩ := bind_eq_ok_iff.mp h
  cases heq
  exact ⟨value, hvalue, rfl⟩

theorem ne_null_of_untagged {tree other : Tree} (h : tree.untagged = other) (hother : other ≠ .null) :
    tree ≠ .null := by
  rintro rfl
  exact hother h.symm

theorem ofItems?_eq_some {items : List Tree} {nodes : List Node}
    (h : Node.ofItems? items = some nodes) :
    List.Forall₂ (fun item node => Node.ofTree? item = some node) items nodes := by
  induction items generalizing nodes with
  | nil =>
    cases h
    exact .nil
  | cons item items ih =>
    rw [Node.ofItems?] at h
    cases hitem : Node.ofTree? item with
    | none => simp [hitem] at h
    | some node =>
      simp only [hitem, Option.map_eq_some_iff] at h
      obtain ⟨later, hitems, rfl⟩ := h
      exact .cons hitem (ih hitems)

theorem ofEntries?_eq_some {entries : List (Tree × Tree)} {pairs : List (String × Node)}
    (h : Node.ofEntries? entries = some pairs) :
    List.Forall₂ (Reads fun tree node => Node.ofTree? tree = some node) entries pairs := by
  induction entries generalizing pairs with
  | nil =>
    cases h
    exact .nil
  | cons entry entries ih =>
    obtain ⟨key, value⟩ := entry
    unfold Node.ofEntries? at h
    split at h
    · next name node hnode =>
      obtain ⟨later, hlater, rfl⟩ := Option.map_eq_some_iff.mp h
      exact .cons ⟨rfl, hnode⟩ (ih hlater)
    · cases h

/-- What is read from the last entry with a name is what the name is found to hold. -/
theorem exists_lookup_of_find? {α : Type} {read : Tree → α → Prop} {entries : List (Tree × Tree)}
    {pairs : List (String × α)} {name : String} {tree : Tree}
    (h : List.Forall₂ (Reads read) entries pairs)
    (hfind : (entries.reverse.find? fun entry => entry.1.text? = some name).map Prod.snd = some tree) :
    ∃ value, pairs.reverse.lookup name = some value ∧ read tree value := by
  have hreverse := List.rel_reverse h
  generalize entries.reverse = entries at hfind hreverse
  generalize pairs.reverse = pairs at hreverse
  induction hreverse with
  | nil => cases hfind
  | @cons entry pair entries pairs hread _ ih =>
    obtain ⟨other, value⟩ := pair
    obtain ⟨hname, hread⟩ := hread
    rw [List.find?_cons] at hfind
    rw [List.lookup_cons]
    by_cases heq : name = other
    · subst heq
      simp only [hname, decide_true, Option.map_some, Option.some.injEq] at hfind
      exact ⟨value, by simp, hfind ▸ hread⟩
    · have hne : ¬ other = name := Ne.symm heq
      simp only [hname, Option.some.injEq, hne, decide_false] at hfind
      simpa [beq_false_of_ne heq] using ih hfind

theorem Items.ofTree?_of_not_list {tree : Tree} (h : ∀ items, tree ≠ .list items) :
    Items.ofTree? tree = (Node.ofTree? tree).map .single := by
  cases tree with
  | list items => exact absurd rfl (h items)
  | _ => rfl

theorem Items.ofTree?_list (items : List Tree) : Items.ofTree? (.list items) =
    ((Node.ofItems? items).map .tuple).or ((Node.ofTree? (.list items)).map .single) := by
  unfold Items.ofTree?
  cases h : Node.ofItems? items <;> simp [h]

/-! ### Schemas and their trees -/

/-- Whether the nested nodes of a schema are those that are read from the parts of a tree. -/
structure Nests (schema : Schema) (tree : Tree) : Prop where
  /-- The properties. -/
  properties : ∀ value entries, tree.field? .properties = some value → value.untagged = .map entries →
    ∃ pairs, schema.properties = some (Entries.ofPairs pairs) ∧
      List.Forall₂ (Reads fun tree node => Node.ofTree? tree = some node) entries pairs
  /-- The elements. -/
  items : ∀ value, tree.field? .items = some value → value ≠ .null → Items.ofTree? value = schema.items
  /-- The parts. -/
  parts : ∀ value items, tree.field? .allOf = some value → value.untagged = .list items →
    ∃ nodes, schema.allOf = some nodes ∧
      List.Forall₂ (fun item node => Node.ofTree? item = some node) items nodes

theorem exists_getElem?_of_forall₂ {α β : Type} {R : α → β → Prop} {xs : List α} {ys : List β}
    (h : List.Forall₂ R xs ys) {i : Nat} {x : α} (hx : xs[i]? = some x) :
    ∃ y, ys[i]? = some y ∧ R x y := by
  induction h generalizing i with
  | nil => cases hx
  | cons hR _ ih =>
    cases i with
    | zero =>
      cases hx
      exact ⟨_, rfl, hR⟩
    | succ i => exact ih hx

namespace Nests

variable {schema : Schema} {tree : Tree}

/-- A property of the tree is a property of the schema. -/
theorem exists_property (h : Nests schema tree) {name : String} {part : Tree}
    (hpart : tree.child? (.property name) = some part) :
    ∃ node, schema.child? (.property name) = some node ∧ Node.ofTree? part = some node := by
  obtain ⟨value, hvalue, hentry⟩ := Option.bind_eq_some_iff.mp hpart
  rw [Tree.valueOf?] at hentry
  split at hentry
  · next entries hentries =>
    obtain ⟨pairs, hproperties, hread⟩ := h.properties value entries hvalue hentries
    obtain ⟨node, hlookup, hnode⟩ := exists_lookup_of_find? hread hentry
    refine ⟨node, ?_, hnode⟩
    rw [Fields.child?, hproperties, Option.bind_some, Table.lookup_ofPairs, hlookup]
  · cases hentry

/-- The properties of the schema have distinct names if the tree has any. -/
theorem nodup_properties (h : Nests schema tree) {name : String} {part : Tree}
    (hpart : tree.child? (.property name) = some part) :
    ((schema.properties.getD []).map Prod.fst).Nodup := by
  obtain ⟨value, hvalue, hentry⟩ := Option.bind_eq_some_iff.mp hpart
  rw [Tree.valueOf?] at hentry
  split at hentry
  · next entries hentries =>
    obtain ⟨pairs, hproperties, -⟩ := h.properties value entries hvalue hentries
    rw [hproperties, Option.getD_some, ← Table.entries_ofList]
    exact (Table.ofList pairs).nodup_keys
  · cases hentry

/-- A part of a composition in the tree is a part in the schema. -/
theorem exists_part (h : Nests schema tree) {i : Nat} {part : Tree}
    (hpart : tree.child? (.part i) = some part) :
    ∃ node, schema.child? (.part i) = some node ∧ Node.ofTree? part = some node := by
  obtain ⟨value, hvalue, hitem⟩ := Option.bind_eq_some_iff.mp hpart
  rw [Tree.item?] at hitem
  split at hitem
  · next items hitems =>
    obtain ⟨nodes, hparts, hread⟩ := h.parts value items hvalue hitems
    obtain ⟨node, hget, hnode⟩ := exists_getElem?_of_forall₂ hread hitem
    exact ⟨node, by rw [Fields.child?, hparts, Option.bind_some, hget], hnode⟩
  · cases hitem

/-- The node for all elements is read from the tree that stands for them. -/
theorem ofTree?_of_element (h : Nests schema tree) {part : Tree} {node : Node}
    (hpart : tree.child? .element = some part) (hnode : schema.child? .element = some node) :
    Node.ofTree? part = some node := by
  rw [Tree.child?] at hpart
  split at hpart
  · cases hpart
  · cases hpart
  · cases hpart
  · next value hnull hlist hvalue =>
    obtain rfl := Option.some.inj hpart
    rw [Fields.child?, ← h.items value hvalue hnull, Items.ofTree?_of_not_list hlist] at hnode
    cases hsingle : Node.ofTree? value with
    | none =>
      rw [hsingle] at hnode
      cases hnode
    | some single =>
      rw [hsingle] at hnode
      exact hnode

/-- The node for a place of a tuple is read from the item at the place. -/
theorem ofTree?_of_place (h : Nests schema tree) {i : Nat} {part : Tree} {node : Node}
    (hpart : tree.child? (.place i) = some part) (hnode : schema.child? (.place i) = some node) :
    Node.ofTree? part = some node := by
  obtain ⟨value, hvalue, hitem⟩ := Option.bind_eq_some_iff.mp hpart
  rw [Tree.item?] at hitem
  split at hitem
  · next items hitems =>
    have hnull : value ≠ .null := by
      rintro rfl
      cases hitems
    rw [Fields.child?, ← h.items value hvalue hnull] at hnode
    cases value with
    | list items' =>
      cases hitems
      rw [Items.ofTree?_list] at hnode
      cases hnodes : Node.ofItems? items with
      | none =>
        -- then the list is one node, which has no places
        rw [hnodes] at hnode
        cases hsingle : Node.ofTree? (.list items) <;> simp [hsingle] at hnode
      | some nodes =>
        rw [hnodes] at hnode
        obtain ⟨other, hother, hread⟩ := exists_getElem?_of_forall₂ (ofItems?_eq_some hnodes) hitem
        obtain rfl : other = node := Option.some.inj (hother.symm.trans hnode)
        exact hread
    | tagged => cases hnode
    | _ => cases hitems
  · cases hitem

/-- The node at a step is what is read from the tree at the step. -/
theorem ofTree?_of_child? (h : Nests schema tree) {step : Step} {part : Tree} {node : Node}
    (hpart : tree.child? step = some part) (hnode : schema.child? step = some node) :
    Node.ofTree? part = some node := by
  cases step with
  | property name =>
    obtain ⟨other, hother, hread⟩ := h.exists_property hpart
    obtain rfl : other = node := Option.some.inj (hother.symm.trans hnode)
    exact hread
  | element => exact h.ofTree?_of_element hpart hnode
  | place i => exact h.ofTree?_of_place hpart hnode
  | part i =>
    obtain ⟨other, hother, hread⟩ := h.exists_part hpart
    obtain rfl : other = node := Option.some.inj (hother.symm.trans hnode)
    exact hread

end Nests

/-! ### Nested nodes -/

theorem eq_some_of_orLoose {schema? : Option Schema} {tree : Tree} {schema : Schema}
    (h : Node.orLoose schema? tree = some (.schema schema)) : schema? = some schema := by
  cases schema? with
  | none => simp [Node.orLoose] at h
  | some schema' => simpa [Node.orLoose] using h

theorem fieldsOf?_of_ofTree? {entries : List (Tree × Tree)} {schema : Schema}
    (h : Node.ofTree? (.map entries) = some (.schema schema)) :
    Node.fieldsOf? [] {} entries = some schema := by
  rw [Node.ofTree?] at h
  exact eq_some_of_orLoose h

theorem positional?_of_ofTree? {items : List Tree} {schema : Schema}
    (h : Node.ofTree? (.list items) = some (.schema schema)) :
    Node.positional? Key.all {} items = some schema := by
  rw [Node.ofTree?] at h
  exact eq_some_of_orLoose h

theorem field?_eq_of_text? {tree : Tree} {key : Key} (h : tree.text? = some key.text)
    (hfit : Selected.ofTree tree ≠ .misfit) : Node.field? tree = some key := by
  cases tree with
  | text s =>
    obtain rfl := Option.some.inj h
    simp [Node.field?, Selected.ofTree]
  | tagged => exact absurd rfl hfit
  | _ => cases h

/-- A schema that is read leniently holds under each key what stands under it in the tree. -/
theorem holds_of_ofTree? {tree value : Tree} {schema : Schema} {key : Key}
    (h : Node.ofTree? tree = some (.schema schema)) (hvalue : tree.field? key = some value) :
    Node.Holds schema key value := by
  cases tree with
  | map entries =>
    obtain ⟨fit, -, holds, -⟩ := Node.fieldsOf?_eq_some_iff.mp (fieldsOf?_of_ofTree? h)
    obtain ⟨entry, hfind, rfl⟩ := Option.map_eq_some_iff.mp hvalue
    have hentry := List.mem_reverse.mp (List.mem_of_find?_eq_some hfind)
    have htext : entry.1.text? = some key.text := by simpa using List.find?_some hfind
    exact holds entry hentry key (field?_eq_of_text? htext (fit entry hentry))
  | list items =>
    have hholds := Node.positional?_eq_some_iff.mp (positional?_of_ofTree? h)
    have hkey : Key.all[Key.all.idxOf key]? = some key := by cases key <;> rfl
    obtain ⟨item, hitem, hholds⟩ := exists_getElem?_of_forall₂ hholds hkey
    obtain rfl := Option.some.inj (hvalue.symm.trans hitem)
    exact hholds
  | tagged => cases h
  | _ => cases hvalue

/-- **Nested schemas.** The nested nodes of a schema that is read leniently are those of its tree. -/
theorem nests_of_ofTree? {tree : Tree} {schema : Schema}
    (h : Node.ofTree? tree = some (.schema schema)) : Nests schema tree where
  properties value entries hvalue hentries := by
    obtain ⟨given, hgiven, hslot⟩ := holds_of_ofTree? h hvalue
    cases value with
    | map entries' =>
      cases hentries
      obtain ⟨pairs, hpairs, rfl⟩ := Option.map_eq_some_iff.mp hgiven
      exact ⟨pairs, Slot.nodes.inj hslot, ofEntries?_eq_some hpairs⟩
    | tagged => cases hgiven
    | _ => cases hentries
  items value hvalue hnull := by
    obtain ⟨given, hgiven, hslot⟩ := holds_of_ofTree? h hvalue
    rw [Node.setField?_items {} hnull] at hgiven
    obtain ⟨items, hitems, rfl⟩ := Option.map_eq_some_iff.mp hgiven
    rw [hitems, Slot.items.inj hslot]
  parts value items hvalue hitems := by
    obtain ⟨given, hgiven, hslot⟩ := holds_of_ofTree? h hvalue
    cases value with
    | list items' =>
      cases hitems
      obtain ⟨nodes, hnodes, rfl⟩ := Option.map_eq_some_iff.mp hgiven
      exact ⟨nodes, Slot.parts.inj hslot, ofItems?_eq_some hnodes⟩
    | tagged => cases hgiven
    | _ => cases hitems

/-! ### Definitions -/

/-- Whether a schema holds under a key what is decoded from a tree. -/
def Keeps (format : Format) (room : Nat) (schema : Schema) (key : Key) (tree : Tree) : Prop :=
  ∃ given, decodeField format room key {} tree = .ok given ∧ schema.slot key = given.slot key

section

variable {format : Format} {room : Nat}

theorem exists_put_of_decodeField {key : Key} {fields schema : Schema} {tree : Tree}
    (h : decodeField format room key fields tree = .ok schema) :
    ∃ given, decodeField format room key {} tree = .ok given ∧ schema = fields.put key given := by
  rw [decodeField_eq_bind] at h
  obtain ⟨given, hgiven, h⟩ := bind_eq_ok_iff.mp h
  cases h
  exact ⟨given, hgiven, rfl⟩

/-- The entries of a definition are kept, each under its key. -/
theorem keeps_of_decodeFields {seen : List Key} {fields schema : Schema} {entries : List (Tree × Tree)}
    (h : decodeFields format room seen fields entries = .ok schema) :
    (∀ key ∈ seen, schema.slot key = fields.slot key) ∧
      ∀ entry ∈ entries, ∀ key : Key, entry.1.text? = some key.text →
        Keeps format room schema key entry.2 := by
  induction entries generalizing seen fields with
  | nil =>
    cases h
    exact ⟨fun _ _ => rfl, nofun⟩
  | cons entry entries ih =>
    obtain ⟨tree, value⟩ := entry
    obtain ⟨name, hname, h⟩ := bind_eq_ok_iff.mp h
    have htext := text?_eq_of_decodeKey hname
    rw [List.forall_mem_cons]
    cases hkey : Key.ofText? name with
    | none =>
      simp only [hkey] at h
      obtain ⟨-, -, h⟩ := bind_eq_ok_iff.mp h
      refine ⟨(ih h).1, fun key heq => ?_, (ih h).2⟩
      obtain rfl := Option.some.inj (htext.symm.trans heq)
      simp at hkey
    | some key =>
      simp only [hkey] at h
      split at h
      · cases h
      · next hseen =>
        obtain ⟨fields', hfield, h⟩ := bind_eq_ok_iff.mp h
        obtain ⟨given, hgiven, rfl⟩ := exists_put_of_decodeField (eq_ok_of_within hfield)
        obtain ⟨hslots, hentries⟩ := ih h
        refine ⟨fun other hother => ?_, fun other heq => ?_, hentries⟩
        · have hne : other ≠ key := fun e => hseen (e ▸ hother)
          rw [hslots other (List.mem_cons_of_mem _ hother), Fields.slot_put_of_ne _ _ hne]
        · obtain rfl := Option.some.inj (htext.symm.trans heq)
          obtain rfl : key = other := by simpa [eq_comm] using hkey
          exact ⟨given, hgiven, by rw [hslots key List.mem_cons_self, Fields.slot_put]⟩

/-- The items of a definition that is given as a list are kept, each under the key of its place. -/
theorem keeps_of_decodePositional {i : Nat} {keys : List Key} {fields schema : Schema}
    {items : List Tree} (distinct : keys.Nodup)
    (h : decodePositional format room i fields keys items = .ok schema) :
    (∀ key ∉ keys, schema.slot key = fields.slot key) ∧
      List.Forall₂ (Keeps format room schema) keys items := by
  induction keys generalizing i fields items with
  | nil =>
    obtain ⟨⟨⟩, hend, h⟩ := bind_eq_ok_iff.mp h
    cases h
    refine ⟨fun _ _ => rfl, ?_⟩
    cases items with
    | nil => exact .nil
    | cons item items =>
      unfold decodeListEnd at hend
      split at hend <;> simp_all
  | cons key keys ih =>
    obtain ⟨hkey, distinct⟩ := List.nodup_cons.mp distinct
    cases items with
    | nil => cases h
    | cons item items =>
      obtain ⟨fields', hfield, h⟩ := bind_eq_ok_iff.mp h
      obtain ⟨given, hgiven, rfl⟩ := exists_put_of_decodeField (eq_ok_of_within hfield)
      obtain ⟨hslots, hitems⟩ := ih distinct h
      obtain ⟨hslot, hslots⟩ := (Node.slots_put_iff hkey).mp hslots
      exact ⟨hslots, .cons ⟨given, hgiven, hslot⟩ hitems⟩

/-- A definition holds under each key what stands under it in the tree. -/
theorem keeps_of_decodeSchema {tree value : Tree} {schema : Schema} {key : Key}
    (h : decodeSchema .json room tree = .ok schema) (hvalue : tree.field? key = some value) :
    ∃ room, Keeps .json room schema key value := by
  unfold decodeSchema at h
  rw [Tree.field?] at hvalue
  cases htree : tree.untagged with
  | map entries =>
    simp only [htree] at h hvalue
    obtain ⟨room', h⟩ := eq_ok_of_enter h
    simp only [Tree.valueOf?, htree] at hvalue
    obtain ⟨entry, hfind, rfl⟩ := Option.map_eq_some_iff.mp hvalue
    have hentry := List.mem_reverse.mp (List.mem_of_find?_eq_some hfind)
    have htext : entry.1.text? = some key.text := by simpa using List.find?_some hfind
    exact ⟨room', (keeps_of_decodeFields h).2 entry hentry key htext⟩
  | list items =>
    simp only [htree] at h hvalue
    obtain ⟨room', h⟩ := eq_ok_of_enter h
    simp only [Tree.item?, htree] at hvalue
    have hkey : Key.all[Key.all.idxOf key]? = some key := by cases key <;> rfl
    obtain ⟨item, hitem, hkeeps⟩ :=
      exists_getElem?_of_forall₂ (keeps_of_decodePositional Key.nodup_all h).2 hkey
    obtain rfl := Option.some.inj (hvalue.symm.trans hitem)
    exact ⟨room', hkeeps⟩
  | _ => simp [htree, Tree.item?] at hvalue

/-- **Definitions.** The nested nodes of a definition are those of its tree. -/
theorem nests_of_decodeSchema {tree : Tree} {schema : Schema}
    (h : decodeSchema .json room tree = .ok schema) : Nests schema tree where
  properties value entries hvalue hentries := by
    obtain ⟨_, given, hgiven, hslot⟩ := keeps_of_decodeSchema h hvalue
    obtain ⟨pairs?, hread, hgiven⟩ := bind_eq_ok_iff.mp hgiven
    obtain ⟨pairs, hpairs, rfl⟩ := decodeOption_eq_ok (ne_null_of_untagged hentries nofun) hread
    cases hgiven
    obtain ⟨_, hpairs⟩ := decodeMap_eq_ok hentries hpairs
    exact ⟨pairs, Slot.nodes.inj hslot, hpairs.imp fun _ _ hread =>
      ⟨hread.1, eq_some_of_lenient hread.2⟩⟩
  items value hvalue hnull := by
    obtain ⟨_, given, hgiven, hslot⟩ := keeps_of_decodeSchema h hvalue
    obtain ⟨items?, hread, hgiven⟩ := bind_eq_ok_iff.mp hgiven
    obtain ⟨items, hitems, rfl⟩ := decodeOption_eq_ok hnull hread
    cases hgiven
    rw [eq_some_of_lenient hitems, Slot.items.inj hslot]
  parts value items hvalue hitems := by
    obtain ⟨_, given, hgiven, hslot⟩ := keeps_of_decodeSchema h hvalue
    obtain ⟨nodes?, hread, hgiven⟩ := bind_eq_ok_iff.mp hgiven
    obtain ⟨nodes, hnodes, rfl⟩ := decodeOption_eq_ok (ne_null_of_untagged hitems nofun) hread
    cases hgiven
    obtain ⟨_, hnodes⟩ := decodeList_eq_ok hitems hnodes
    exact ⟨nodes, Slot.parts.inj hslot, hnodes.imp fun _ _ => eq_some_of_lenient⟩

/-! ### Nodes after any number of steps -/

/-- A schema that is reached from another by some steps is read from what the same steps reach in the
tree. -/
theorem nests_of_at? {schema enclosing : Schema} {tree place : Tree} (h : Nests schema tree)
    {steps : List Step} (hschema : schema.at? steps = some enclosing)
    (htree : tree.at? steps = some place) :
    Nests enclosing place := by
  induction steps generalizing schema tree with
  | nil =>
    cases hschema
    cases htree
    exact h
  | cons step steps ih =>
    obtain ⟨part, hpart, htree⟩ := Option.bind_eq_some_iff.mp htree
    obtain ⟨inner, hinner, hschema⟩ := Option.bind_eq_some_iff.mp hschema
    obtain ⟨node, hnode, hinner⟩ := Option.bind_eq_some_iff.mp hinner
    have hread := h.ofTree?_of_child? hpart hnode
    cases node with
    | loose => cases hinner
    | schema fields =>
      cases hinner
      exact ih (nests_of_ofTree? hread) hschema htree

/-! ### Documents -/

theorem eq_of_decodeRoot {format : Format} {given : Option Document} {document : Document}
    {entries : List (Tree × Tree)} (h : decodeRoot format room given entries = .ok document) :
    (∀ first, given = some first → document = first) ∧
      ∀ entry ∈ entries, entry.1.text? = some definitionsKey →
        decodeDefinitions format room entry.2 = .ok document := by
  induction entries generalizing given with
  | nil =>
    cases h
    exact ⟨fun first heq => by rw [heq, Option.getD_some], nofun⟩
  | cons entry entries ih =>
    obtain ⟨tree, value⟩ := entry
    obtain ⟨name, hname, h⟩ := bind_eq_ok_iff.mp h
    have htext := text?_eq_of_decodeKey hname
    rw [List.forall_mem_cons]
    split at h
    · next hdefinitions =>
      cases given with
      | some first => cases h
      | none =>
        obtain ⟨first, hfirst, h⟩ := bind_eq_ok_iff.mp h
        obtain rfl := (ih h).1 first rfl
        exact ⟨nofun, fun _ => eq_ok_of_within hfirst, (ih h).2⟩
    · next hother =>
      obtain ⟨-, -, h⟩ := bind_eq_ok_iff.mp h
      exact ⟨(ih h).1, fun heq => absurd (Option.some.inj (htext.symm.trans heq)) hother, (ih h).2⟩

/-- Every definition of the tree of a document is decoded into the schema of the document. -/
theorem exists_decodeSchema {document : Document} {tree definition : Tree} {id : String}
    (h : Document.decode .json tree = .ok document)
    (hdefinition : tree.definition? id = some definition) :
    ∃ schema room, document.definitions.get? id = some schema ∧
      decodeSchema .json room definition = .ok schema := by
  obtain ⟨definitions, hdefinitions, hentry⟩ := Option.bind_eq_some_iff.mp hdefinition
  -- a root may be given by its keys or as a list of its only field
  obtain ⟨room, hread⟩ : ∃ room, decodeDefinitions .json room definitions = .ok document := by
    unfold Document.decode at h
    cases htree : tree.untagged with
    | map entries =>
      simp only [htree, Tree.valueOf?] at h hdefinitions
      obtain ⟨room, h⟩ := eq_ok_of_enter h
      obtain ⟨entry, hfind, rfl⟩ := Option.map_eq_some_iff.mp hdefinitions
      have hmem := List.mem_reverse.mp (List.mem_of_find?_eq_some hfind)
      exact ⟨room, (eq_of_decodeRoot h).2 entry hmem (by simpa using List.find?_some hfind)⟩
    | list items =>
      simp only [htree, Tree.item?] at h hdefinitions
      obtain ⟨room, h⟩ := eq_ok_of_enter h
      cases items with
      | nil => cases hdefinitions
      | cons item items =>
        cases hdefinitions
        obtain ⟨first, hfirst, h⟩ := bind_eq_ok_iff.mp h
        obtain ⟨-, -, h⟩ := bind_eq_ok_iff.mp h
        cases h
        exact ⟨room, eq_ok_of_within hfirst⟩
    | _ => simp [htree, Tree.item?] at hdefinitions
  obtain ⟨pairs, hpairs, hdocument⟩ := bind_eq_ok_iff.mp hread
  cases hdocument
  rw [Tree.valueOf?] at hentry
  split at hentry
  · next entries hentries =>
    obtain ⟨room', hpairs⟩ := decodeMap_eq_ok hentries hpairs
    obtain ⟨schema, hlookup, hschema⟩ := exists_lookup_of_find? hpairs hentry
    exact ⟨schema, room', by rw [Table.get?_ofList, hlookup], hschema⟩
  · cases hentry

end

end SchemaCompiler
