import SchemaCompiler.Proofs.Fields
import SchemaCompiler.Proofs.Traversal

/-!
# Decoding the fields of a definition

What decoding the tree of a JSON value comes to is said by two things that know nothing of formats
and of how deep containers may be nested: the list of the faults of the value, of which the first one is
reported, and what the lenient reader of nested nodes makes of the same tree. This is the `Outcome` of
a decoder. Every value is a node (`exists_ofTree?`), so a field of a definition can only fail for the
shape of its own value or of the items of a list of texts (`outcome_decodeField`).
-/

namespace SchemaCompiler

open Traversal

/-- A decoder fails with the first of the faults, if there are any, and otherwise gives a value. -/
structure Outcome {α : Type} (result : Except Fault α) (faults : List Fault) (value? : Option α) :
    Prop where
  /-- The fault that is reported. -/
  fault : fault? result = faults.head?
  /-- The value that is given. -/
  value : result.toOption = value?

namespace Outcome

variable {α β : Type} {result other : Except Fault α} {faults : List Fault} {value? : Option α}

theorem ok (value : α) : Outcome (.ok value) [] (some value) := ⟨rfl, rfl⟩

theorem error (fault : Fault) : Outcome (.error fault : Except Fault α) [fault] none := ⟨rfl, rfl⟩

/-- An outcome leaves no choice. -/
theorem unique (h : Outcome result faults value?) (h' : Outcome other faults value?) :
    result = other := by
  have hfault : fault? result = fault? other := h.fault.trans h'.fault.symm
  have hvalue : result.toOption = other.toOption := h.value.trans h'.value.symm
  cases result <;> cases other <;> simp_all [Except.toOption]

/-- A decoder gives a value exactly when there are no faults. -/
theorem isSome_iff (h : Outcome result faults value?) : value?.isSome ↔ faults = [] := by
  obtain ⟨hfault, rfl⟩ := h
  cases result <;> cases faults <;> simp_all [Except.toOption]

theorem of_value_eq {value?' : Option α} (h : Outcome result faults value?) (heq : value? = value?') :
    Outcome result faults value?' :=
  heq ▸ h

theorem map (h : Outcome result faults value?) (f : α → β) :
    Outcome (result >>= fun value => .ok (f value)) faults (value?.map f) := by
  obtain ⟨hfault, rfl⟩ := h
  refine ⟨?_, ?_⟩
  · rw [← hfault]
    cases result <;> rfl
  · cases result <;> rfl

/-- The faults of a part, seen from its container. -/
theorem within (h : Outcome result faults value?) (segment : Segment) (part : Json) :
    Outcome (within segment part.tree result) (faults.map (Fault.under segment)) value? := by
  obtain ⟨hfault, rfl⟩ := h
  rw [Json.within_tree]
  refine ⟨?_, ?_⟩
  · rw [List.head?_map, ← hfault]
    cases result <;> rfl
  · cases result <;> rfl

/-- Of two decoders one after the other, the first fault is that of the first one that has any. -/
theorem bind {next : α → Except Fault β} {later : List Fault} {next? : α → Option β}
    (h : Outcome result faults value?) (hfaults : ∀ value, value? = some value →
      Outcome (next value) later (next? value)) :
    Outcome (result >>= next) (faults ++ later) (value?.bind next?) := by
  obtain ⟨hfault, rfl⟩ := h
  cases result with
  | error fault =>
    refine ⟨?_, rfl⟩
    rw [List.head?_append, ← hfault]
    rfl
  | ok value =>
    obtain ⟨hnext, hvalue⟩ := hfaults value rfl
    refine ⟨?_, hvalue⟩
    rw [List.head?_append, ← hfault]
    exact hnext

end Outcome

/-! ### The faults of a value -/

namespace Json

/-- The text that a value is, if it is one. -/
def text? : Json → Option String
  | .text s => some s
  | _ => none

/-- The faults of a value where a text is wanted. -/
def textFaults : Json → List Fault
  | .text _ => []
  | other => [.here (.mismatch (.ofTree other.tree) .text)]

/-- The faults of the items of a list, the first of which has the given index. -/
def itemsFaults (faults : Json → List Fault) (i : Nat) : List Json → List Fault
  | [] => []
  | item :: items => (faults item).map (Fault.under (.index i)) ++ itemsFaults faults (i + 1) items

/-- The faults of a value where a list is wanted, given those of its items. -/
def listFaults (faults : Json → List Fault) : Json → List Fault
  | .list items => itemsFaults faults 0 items
  | other => [.here (.mismatch (.ofTree other.tree) .list)]

/-- The faults of a value where a map is wanted, given those of the values of its keys. -/
def mapFaults (faults : Json → List Fault) : Json → List Fault
  | .object entries => entries.flatMap fun entry => (faults entry.2).map (Fault.under (.key entry.1))
  | other => [.here (.mismatch (.ofTree other.tree) .map)]

/-- The faults of a value that may be left out. -/
def optionalFaults (faults : Json → List Fault) : Json → List Fault
  | .null => []
  | other => faults other

end Json

/-- The faults of the value that a definition has under a key. Nodes have none. -/
def Key.faults : Key → Json → List Fault
  | reference | title | description => Json.optionalFaults Json.textFaults
  | type | items => fun _ => []
  | required => Json.optionalFaults (Json.listFaults Json.textFaults)
  | properties => Json.optionalFaults (Json.mapFaults fun _ => [])
  | allOf => Json.optionalFaults (Json.listFaults fun _ => [])

/-! ### Nodes -/

namespace Node

theorem exists_orLoose (schema? : Option Schema) {tree : Tree} {kept : Json}
    (h : Json.ofTree? tree = some kept) : ∃ node, orLoose schema? tree = some node := by
  cases schema? with
  | none => exact ⟨.loose kept, by rw [orLoose, h, Option.map_some]⟩
  | some schema => exact ⟨.schema schema, rfl⟩

/-- Every JSON value is a node. -/
theorem exists_ofTree? (value : Json) : ∃ node, ofTree? value.tree = some node := by
  obtain ⟨kept, hkept, -⟩ := value.exists_decodeJson_tree
  cases value <;>
    · rw [Json.tree] at hkept ⊢
      rw [ofTree?]
      exact exists_orLoose _ hkept

theorem ofItems?_eq_mapM (items : List Tree) : ofItems? items = items.mapM ofTree? := by
  induction items with
  | nil => rfl
  | cons item items ih =>
    rw [ofItems?, ih, List.mapM_cons]
    cases ofTree? item with
    | none => rfl
    | some node => cases items.mapM ofTree? <;> rfl

theorem ofEntries?_tree (entries : List (String × Json)) :
    ofEntries? (Json.treeEntries entries) =
      entries.mapM fun entry => (ofTree? entry.2.tree).map (entry.1, ·) := by
  induction entries with
  | nil => rfl
  | cons entry entries ih =>
    obtain ⟨name, value⟩ := entry
    rw [List.mapM_cons, ← ih]
    cases hnode : ofTree? value.tree with
    | none => simp [Json.treeEntries, ofEntries?, hnode]
    | some node =>
      cases hnodes : ofEntries? (Json.treeEntries entries) <;>
        simp [Json.treeEntries, ofEntries?, hnode, hnodes]

/-- Under `type` a tree is any JSON value, unless it is the empty value. -/
theorem setField?_type (fields : Schema) {tree : Tree} (h : tree ≠ .null) :
    setField? .type fields tree =
      (Json.ofTree? tree).map fun value => { fields with type := some value } := by
  cases tree with
  | null => exact absurd rfl h
  | list items => simp [setField?, optionalJson?, Function.comp_def]
  | map entries => simp [setField?, optionalJson?, Function.comp_def]
  | _ => rfl

/-- Under `items` a tree says what the elements are, unless it is the empty value. -/
theorem setField?_items (fields : Schema) {tree : Tree} (h : tree ≠ .null) :
    setField? .items fields tree =
      (Items.ofTree? tree).map fun items => { fields with items := some items } := by
  cases tree with
  | null => exact absurd rfl h
  | list items =>
    simp only [setField?, Items.ofTree?, ofTree?]
    cases ofItems? items with
    | none => simp [Function.comp_def]
    | some nodes => rfl
  | _ => simp [setField?, Items.ofTree?, ofTree?, orLoose, Json.ofTree?, Function.comp_def]

/-- Every JSON value says what the elements of an array are. -/
theorem exists_itemsOfTree? (value : Json) : ∃ items, Items.ofTree? value.tree = some items := by
  obtain ⟨node, hnode⟩ := exists_ofTree? value
  unfold Items.ofTree?
  simp only
  split
  · exact ⟨_, rfl⟩
  · exact ⟨.single node, by rw [hnode, Option.map_some]⟩

end Node

/-! ### Lists, maps and fields -/

section

variable {α : Type} {format : Format} {room : Nat}

theorem outcome_decodeText (value : Json) :
    Outcome (decodeText value.tree) value.textFaults value.text? := by
  cases value <;> exact ⟨rfl, rfl⟩

theorem mapM_cons_eq_bind {β : Type} (f : β → Option α) (x : β) (xs : List β) :
    (x :: xs).mapM f = (f x).bind fun y => (xs.mapM f).map (y :: ·) := by
  rw [List.mapM_cons]
  cases f x with
  | none => rfl
  | some y => cases xs.mapM f <;> rfl

/-- The items of a list have the faults of each in order. -/
theorem outcome_decodeItems {decode : Tree → Except Fault α} {faults : Json → List Fault}
    {value? : Json → Option α} {items : List Json}
    (h : ∀ item ∈ items, Outcome (decode item.tree) (faults item) (value? item)) (i : Nat) :
    Outcome (decodeItems decode i (Json.treeItems items)) (Json.itemsFaults faults i items)
      (items.mapM value?) := by
  induction items generalizing i with
  | nil => exact .ok []
  | cons item items ih =>
    have hfirst := (h item List.mem_cons_self).within (.index i) item
    have hlater := ih (fun other hother => h other (List.mem_cons_of_mem _ hother)) (i + 1)
    rw [Json.treeItems, decodeItems, Json.itemsFaults, mapM_cons_eq_bind]
    exact hfirst.bind fun value _ => hlater.map (value :: ·)

/-- The entries of a map have the faults of the value of each in order. -/
theorem outcome_decodeEntries {decode : Tree → Except Fault α} {faults : Json → List Fault}
    {value? : Json → Option α} {entries : List (String × Json)}
    (h : ∀ entry ∈ entries, Outcome (decode entry.2.tree) (faults entry.2) (value? entry.2)) :
    Outcome (decodeEntries decode (Json.treeEntries entries))
      (entries.flatMap fun entry => (faults entry.2).map (Fault.under (.key entry.1)))
      (entries.mapM fun entry => (value? entry.2).map (entry.1, ·)) := by
  induction entries with
  | nil => exact .ok []
  | cons entry entries ih =>
    obtain ⟨name, value⟩ := entry
    have hfirst := (h (name, value) List.mem_cons_self).within (.key name) value
    have hlater := ih fun other hother => h other (List.mem_cons_of_mem _ hother)
    rw [Json.treeEntries, decodeEntries, Json.decodeKey_text, List.flatMap_cons,
      mapM_cons_eq_bind, Option.bind_map]
    exact hfirst.bind fun value _ => hlater.map ((name, value) :: ·)

theorem decodeOption_of_ne_null (decode : Tree → Except Fault α) {tree : Tree} (h : tree ≠ .null) :
    decodeOption decode tree = decode tree >>= fun value => .ok (some value) := by
  rw [decodeOption]
  · cases decode tree <;> rfl
  · exact h

theorem outcome_decodeOption {decode : Tree → Except Fault α} {faults : Json → List Fault}
    {value : Json} {value? : Option α} (hnull : value ≠ .null)
    (h : Outcome (decode value.tree) (faults value) value?) :
    Outcome (decodeOption decode value.tree) (Json.optionalFaults faults value)
      (value?.map some) := by
  rw [decodeOption_of_ne_null decode (Json.tree_ne_null hnull)]
  cases value with
  | null => exact absurd rfl hnull
  | _ => exact h.map some

theorem outcome_decodeList (format : Format) {decode : Nat → Tree → Except Fault α}
    {faults : Json → List Fault} {value? : Json → Option α} {value : Json} (hnull : value ≠ .null)
    (hroom : value.depth ≤ room)
    (h : ∀ item room, item.depth ≤ room → Outcome (decode room item.tree) (faults item) (value? item)) :
    Outcome (decodeList format decode room value.tree) (Json.listFaults faults value)
      (match value with
        | .list items => items.mapM value?
        | _ => none) := by
  cases value with
  | null => exact absurd rfl hnull
  | list items =>
    cases room with
    | zero => simp [Json.depth] at hroom
    | succ room =>
      rw [Json.depth] at hroom
      exact outcome_decodeItems (fun item hitem => h item room
        (Nat.le_trans (Json.depth_le_of_mem hitem) (Nat.le_of_succ_le_succ hroom))) 0
  | _ => exact ⟨rfl, rfl⟩

theorem outcome_decodeMap (format : Format) {decode : Nat → Tree → Except Fault α}
    {faults : Json → List Fault} {value? : Json → Option α} {value : Json}
    (hnull : value = .null → format = .json) (hroom : value.depth ≤ room)
    (h : ∀ part room, part.depth ≤ room →
      (∃ entries, value = .object entries ∧ part ∈ entries.map Prod.snd) →
      Outcome (decode room part.tree) (faults part) (value? part)) :
    Outcome (decodeMap format decode room value.tree) (Json.mapFaults faults value)
      (match value with
        | .object entries => entries.mapM fun entry => (value? entry.2).map (entry.1, ·)
        | _ => none) := by
  cases value with
  | null =>
    obtain rfl := hnull rfl
    exact ⟨rfl, rfl⟩
  | object entries =>
    cases room with
    | zero => simp [Json.depth] at hroom
    | succ room =>
      rw [Json.depth] at hroom
      exact outcome_decodeEntries fun entry hentry => h entry.2 room
        (Nat.le_trans (Json.depth_le_of_mem_entries hentry) (Nat.le_of_succ_le_succ hroom))
        ⟨entries, rfl, List.mem_map_of_mem hentry⟩
  | _ => exact ⟨rfl, rfl⟩

theorem texts?_tree (items : List Json) : texts? (Json.treeItems items) = items.mapM Json.text? := by
  induction items with
  | nil => rfl
  | cons item items ih =>
    rw [mapM_cons_eq_bind, ← ih]
    cases item <;> rfl

theorem ofItems?_tree (items : List Json) :
    Node.ofItems? (Json.treeItems items) = items.mapM fun item => Node.ofTree? item.tree := by
  rw [Node.ofItems?_eq_mapM, Json.treeItems_eq_map, List.mapM_map]
  rfl

/-- A node that is not nested too deep has no faults. -/
theorem outcome_decodeNode (value : Json) (room : Nat) (h : value.depth ≤ room) :
    Outcome (lenient .node Node.ofTree? room value.tree) [] (Node.ofTree? value.tree) := by
  obtain ⟨node, hnode⟩ := Node.exists_ofTree? value
  rw [lenient, value.checkReadable_tree room h, hnode]
  exact .ok node

/-- **Fields.** A field of a definition has the faults of its value, and without any it holds what the
lenient reader makes of the value. -/
theorem outcome_decodeField (key : Key) {value : Json} (h : value.depth ≤ room) :
    Outcome (decodeField format room key {} value.tree) (key.faults value)
      (Node.setField? key {} value.tree) := by
  by_cases hnull : value = .null
  · subst hnull
    cases key <;> exact ⟨rfl, rfl⟩
  have htext := outcome_decodeOption hnull (outcome_decodeText value)
  cases key with
  | reference | title | description =>
    cases value with
    | null => exact absurd rfl hnull
    | _ => exact htext.map _
  | type =>
    obtain ⟨kept, htree, hdecode⟩ := value.exists_decodeJson_tree
    rw [decodeField, decodeOption_of_ne_null _ (Json.tree_ne_null hnull), hdecode room h,
      Node.setField?_type _ (Json.tree_ne_null hnull), htree]
    exact .ok _
  | required =>
    have := (outcome_decodeOption hnull (outcome_decodeList format hnull h
      fun item _ _ => outcome_decodeText item)).map fun texts => ({ required := texts } : Schema)
    cases value with
    | null => exact absurd rfl hnull
    | list items =>
      exact this.of_value_eq (by simp [Json.tree, Node.setField?, texts?_tree, Function.comp_def])
    | _ => exact this
  | properties =>
    have := (outcome_decodeOption hnull (outcome_decodeMap format (absurd · hnull) h
      fun part room hroom _ => outcome_decodeNode part room hroom)).map
        fun pairs => ({ properties := pairs.map Entries.ofPairs } : Schema)
    cases value with
    | null => exact absurd rfl hnull
    | object entries =>
      exact this.of_value_eq (by
        simp [Json.tree, Node.setField?, Node.ofEntries?_tree, Function.comp_def])
    | _ => exact this
  | items =>
    obtain ⟨items, hitems⟩ := Node.exists_itemsOfTree? value
    rw [decodeField, decodeOption_of_ne_null _ (Json.tree_ne_null hnull), lenient,
      value.checkReadable_tree room h, hitems, Node.setField?_items _ (Json.tree_ne_null hnull), hitems]
    exact .ok _
  | allOf =>
    have := (outcome_decodeOption hnull (outcome_decodeList format hnull h
      outcome_decodeNode)).map fun nodes => ({ allOf := nodes } : Schema)
    cases value with
    | null => exact absurd rfl hnull
    | list items =>
      exact this.of_value_eq (by simp [Json.tree, Node.setField?, ofItems?_tree, Function.comp_def])
    | _ => exact this

end

end SchemaCompiler
