import SchemaCompiler.Proofs.Table
import SchemaCompiler.Schema.Decode

/-!
# JSON values and their trees

The tree of a JSON value has neither tags nor breaks, and its keys are texts. Reading such a tree can
only fail for the shape of the value: it is readable as far as it is not nested too deep
(`checkReadable_tree`), it can be passed over (`skipFault?_tree`), and it is kept as a JSON value
wherever any value is wanted (`exists_decodeJson_tree`), which is the value itself when its keys are
distinct and its numbers finite (`ofTree?_tree`).
-/

namespace SchemaCompiler

/-- Whether a number is an integer or a finite floating-point number. -/
def Number.IsFinite : Number → Prop
  | integer _ => True
  | float x => x.isFinite = true

namespace Json

/-- Induction on a value: what holds of the parts of a container holds of the container. -/
@[elab_as_elim, induction_eliminator]
theorem induction {motive : Json → Prop} (null : motive .null) (bool : ∀ b, motive (.bool b))
    (number : ∀ n, motive (.number n)) (text : ∀ s, motive (.text s))
    (list : ∀ items, (∀ item ∈ items, motive item) → motive (.list items))
    (object : ∀ entries, (∀ entry ∈ entries, motive entry.2) → motive (.object entries)) :
    ∀ value, motive value
  | .null => null
  | .bool b => bool b
  | .number n => number n
  | .text s => text s
  | .list items =>
    list items fun item _ => induction null bool number text list object item
  | .object entries =>
    object entries fun entry _ => induction null bool number text list object entry.2
termination_by value => sizeOf value
decreasing_by
  · have := List.sizeOf_lt_of_mem ‹item ∈ items›
    simp only [Json.list.sizeOf_spec]
    omega
  · have := List.sizeOf_lt_of_mem ‹entry ∈ entries›
    have : sizeOf entry = 1 + sizeOf entry.1 + sizeOf entry.2 := rfl
    simp only [Json.object.sizeOf_spec]
    omega

/-! ### Trees -/

mutual

/-- The tree of a value. -/
def tree : Json → Tree
  | .null => .null
  | .bool b => .bool b
  | .number n => .number n
  | .text s => .text s
  | .list items => .list (treeItems items)
  | .object entries => .map (treeEntries entries)

/-- The trees of the items of an array. -/
def treeItems : List Json → List Tree
  | [] => []
  | item :: items => item.tree :: treeItems items

/-- The trees of the entries of an object. -/
def treeEntries : List (String × Json) → List (Tree × Tree)
  | [] => []
  | (name, value) :: entries => (.text name, value.tree) :: treeEntries entries

end

theorem treeItems_eq_map (items : List Json) : treeItems items = items.map tree := by
  induction items with
  | nil => rfl
  | cons item items ih => rw [treeItems, ih, List.map_cons]

theorem treeEntries_eq_map (entries : List (String × Json)) :
    treeEntries entries = entries.map fun entry => (.text entry.1, entry.2.tree) := by
  induction entries with
  | nil => rfl
  | cons entry entries ih => rw [treeEntries, ih, List.map_cons]

theorem tree_ne_null {value : Json} (h : value ≠ .null) : value.tree ≠ .null := by
  cases value <;> first | exact absurd rfl h | nofun

mutual

/-- How deep the containers of a value are nested. -/
def depth : Json → Nat
  | .list items => depthItems items + 1
  | .object entries => depthEntries entries + 1
  | .null | .bool _ | .number _ | .text _ => 0

/-- The greatest depth of the items of an array. -/
def depthItems : List Json → Nat
  | [] => 0
  | item :: items => max item.depth (depthItems items)

/-- The greatest depth of the values of an object. -/
def depthEntries : List (String × Json) → Nat
  | [] => 0
  | (_, value) :: entries => max value.depth (depthEntries entries)

end

theorem depth_le_of_mem {items : List Json} {item : Json} (h : item ∈ items) :
    item.depth ≤ depthItems items := by
  induction items with
  | nil => cases h
  | cons first items ih =>
    rw [depthItems]
    rcases List.mem_cons.mp h with rfl | h
    · exact Nat.le_max_left _ _
    · exact Nat.le_trans (ih h) (Nat.le_max_right _ _)

theorem depth_le_of_mem_entries {entries : List (String × Json)} {entry : String × Json}
    (h : entry ∈ entries) : entry.2.depth ≤ depthEntries entries := by
  induction entries with
  | nil => cases h
  | cons first entries ih =>
    rw [depthEntries]
    rcases List.mem_cons.mp h with rfl | h
    · exact Nat.le_max_left _ _
    · exact Nat.le_trans (ih h) (Nat.le_max_right _ _)

/-- A value whose numbers are finite and whose objects have distinct keys. -/
inductive Regular : Json → Prop where
  /-- The empty value. -/
  | null : Regular .null
  /-- A truth value. -/
  | bool (b : Bool) : Regular (.bool b)
  /-- A finite number. -/
  | number {n : Number} (h : n.IsFinite) : Regular (.number n)
  /-- A text. -/
  | text (s : String) : Regular (.text s)
  /-- An array of such values. -/
  | list {items : List Json} (h : ∀ item ∈ items, Regular item) : Regular (.list items)
  /-- An object of such values with distinct keys. -/
  | object {entries : List (String × Json)} (distinct : (entries.map Prod.fst).Nodup)
      (h : ∀ entry ∈ entries, Regular entry.2) : Regular (.object entries)

attribute [simp] Regular.null Regular.bool Regular.text

@[simp] theorem regular_list_iff {items : List Json} :
    (list items).Regular ↔ ∀ item ∈ items, item.Regular :=
  ⟨fun | .list h => h, .list⟩

@[simp] theorem regular_object_iff {entries : List (String × Json)} : (object entries).Regular ↔
    (entries.map Prod.fst).Nodup ∧ ∀ entry ∈ entries, entry.2.Regular :=
  ⟨fun | .object distinct h => ⟨distinct, h⟩, fun ⟨distinct, h⟩ => .object distinct h⟩

/-- Whether a value is an object in which a name has the given value. -/
def Has (container : Json) (name : String) (value : Json) : Prop :=
  ∃ entries, container = .object entries ∧ (name, value) ∈ entries

theorem Regular.part {container value : Json} {name : String} (h : container.Regular)
    (hvalue : container.Has name value) : value.Regular := by
  obtain ⟨entries, rfl, hmem⟩ := hvalue
  cases h with
  | object _ h => exact h _ hmem

/-! ### Reading the tree of a value -/

/-- A part of a container that holds the tree of a value is never a break, so its faults are those of
the value. -/
theorem within_tree {α : Type} (segment : Segment) (value : Json) (result : Except Fault α) :
    within segment value.tree result = result.mapError (Fault.under segment) := by
  cases value <;> cases result <;> rfl

@[simp] theorem decodeKey_text (wanted : Wanted) (name : String) :
    decodeKey wanted (.text name) = .ok name := rfl

theorem checkReadableItems_tree {room : Nat} {items : List Json}
    (h : ∀ item ∈ items, item.tree.checkReadable room = .ok ()) (i : Nat) :
    Tree.checkReadableItems room i (treeItems items) = .ok () := by
  induction items generalizing i with
  | nil => rfl
  | cons item items ih =>
    rw [treeItems, Tree.checkReadableItems, within_tree, h item List.mem_cons_self]
    exact ih (fun other hother => h other (List.mem_cons_of_mem _ hother)) (i + 1)

theorem checkReadableEntries_tree {room : Nat} {entries : List (String × Json)}
    (h : ∀ entry ∈ entries, entry.2.tree.checkReadable room = .ok ()) :
    Tree.checkReadableEntries room (treeEntries entries) = .ok () := by
  induction entries with
  | nil => rfl
  | cons entry entries ih =>
    rw [treeEntries, Tree.checkReadableEntries, within_tree, h entry List.mem_cons_self]
    exact ih fun other hother => h other (List.mem_cons_of_mem _ hother)

/-- A value that is not nested too deep can be read to its end. -/
theorem checkReadable_tree (value : Json) (room : Nat) (h : value.depth ≤ room) :
    value.tree.checkReadable room = .ok () := by
  induction value generalizing room with
  | null | bool | number | text => rfl
  | list items ih =>
    cases room with
    | zero => simp [depth] at h
    | succ room =>
      rw [depth] at h
      exact checkReadableItems_tree (fun item hitem => ih item hitem room
        (Nat.le_trans (depth_le_of_mem hitem) (Nat.le_of_succ_le_succ h))) 0
  | object entries ih =>
    cases room with
    | zero => simp [depth] at h
    | succ room =>
      rw [depth] at h
      exact checkReadableEntries_tree fun entry hentry => ih entry hentry room
        (Nat.le_trans (depth_le_of_mem_entries hentry) (Nat.le_of_succ_le_succ h))

theorem skipFaultItems?_tree {items : List Json} (h : ∀ item ∈ items, item.tree.skipFault? = none) :
    Tree.skipFaultItems? (treeItems items) = none := by
  induction items with
  | nil => rfl
  | cons item items ih =>
    rw [treeItems, Tree.skipFaultItems?, h item List.mem_cons_self]
    exact ih fun other hother => h other (List.mem_cons_of_mem _ hother)

theorem skipFaultEntries?_tree {entries : List (String × Json)}
    (h : ∀ entry ∈ entries, entry.2.tree.skipFault? = none) :
    Tree.skipFaultEntries? (treeEntries entries) = none := by
  induction entries with
  | nil => rfl
  | cons entry entries ih =>
    rw [treeEntries, Tree.skipFaultEntries?, h entry List.mem_cons_self]
    exact ih fun other hother => h other (List.mem_cons_of_mem _ hother)

/-- A value can be passed over, however deep it is nested. -/
theorem skipFault?_tree (value : Json) : value.tree.skipFault? = none := by
  induction value with
  | null | bool | number | text => rfl
  | list items ih => exact skipFaultItems?_tree ih
  | object entries ih => exact skipFaultEntries?_tree ih

theorem passOver_tree (value : Json) : passOver value.tree = .ok () := by
  rw [passOver, skipFault?_tree]

/-! ### Values that are kept -/

theorem exists_decodeJsonItems_tree {items : List Json}
    (h : ∀ item ∈ items, ∃ kept, ofTree? item.tree = some kept ∧
      ∀ room, item.depth ≤ room → decodeJson room item.tree = .ok kept) :
    ∃ kept, ofItems? (treeItems items) = some kept ∧
      ∀ room i, depthItems items ≤ room → decodeJsonItems room i (treeItems items) = .ok kept := by
  induction items with
  | nil => exact ⟨[], rfl, fun _ _ _ => rfl⟩
  | cons item items ih =>
    obtain ⟨first, htree, hfirst⟩ := h item List.mem_cons_self
    obtain ⟨later, htrees, hlater⟩ := ih fun other hother => h other (List.mem_cons_of_mem _ hother)
    refine ⟨first :: later, by simp [treeItems, ofItems?, htree, htrees], fun room i hroom => ?_⟩
    rw [depthItems, Nat.max_le] at hroom
    rw [treeItems, decodeJsonItems, within_tree, hfirst room hroom.1]
    simp [Except.mapError, hlater room (i + 1) hroom.2]

theorem exists_decodeJsonEntries_tree {entries : List (String × Json)}
    (h : ∀ entry ∈ entries, ∃ kept, ofTree? entry.2.tree = some kept ∧
      ∀ room, entry.2.depth ≤ room → decodeJson room entry.2.tree = .ok kept) :
    ∃ kept, ofEntries? (treeEntries entries) = some kept ∧ ∀ room wanted,
      depthEntries entries ≤ room → decodeJsonEntries room wanted (treeEntries entries) = .ok kept := by
  induction entries with
  | nil => exact ⟨[], rfl, fun _ _ _ => rfl⟩
  | cons entry entries ih =>
    obtain ⟨name, value⟩ := entry
    obtain ⟨first, htree, hfirst⟩ := h (name, value) List.mem_cons_self
    obtain ⟨later, htrees, hlater⟩ := ih fun other hother => h other (List.mem_cons_of_mem _ hother)
    refine ⟨(name, first) :: later, by simp [treeEntries, ofEntries?, htree, htrees],
      fun room wanted hroom => ?_⟩
    rw [depthEntries, Nat.max_le] at hroom
    simp only [treeEntries, decodeJsonEntries, decodeKey_text, within_tree, hfirst room hroom.1,
      Except.mapError, hlater room .text hroom.2]

/-- Where any value is wanted, a value that is not nested too deep is kept, and it is kept alike
inside of a nested node. -/
theorem exists_decodeJson_tree (value : Json) :
    ∃ kept, ofTree? value.tree = some kept ∧
      ∀ room, value.depth ≤ room → decodeJson room value.tree = .ok kept := by
  induction value with
  | null => exact ⟨.null, rfl, fun _ _ => rfl⟩
  | bool b => exact ⟨.bool b, rfl, fun _ _ => rfl⟩
  | number n => exact ⟨n.toJson, rfl, fun _ _ => rfl⟩
  | text s => exact ⟨.text s, rfl, fun _ _ => rfl⟩
  | list items ih =>
    obtain ⟨kept, htree, hdecode⟩ := exists_decodeJsonItems_tree ih
    refine ⟨.list kept, by simp [tree, ofTree?, htree], fun room hroom => ?_⟩
    cases room with
    | zero => simp [depth] at hroom
    | succ room =>
      rw [depth] at hroom
      rw [tree, decodeJson, hdecode room 0 (Nat.le_of_succ_le_succ hroom)]
  | object entries ih =>
    obtain ⟨kept, htree, hdecode⟩ := exists_decodeJsonEntries_tree ih
    refine ⟨.object (Entries.ofPairs kept), by simp [tree, ofTree?, htree], fun room hroom => ?_⟩
    cases room with
    | zero => simp [depth] at hroom
    | succ room =>
      rw [depth] at hroom
      rw [tree, decodeJson, hdecode room .objectKey (Nat.le_of_succ_le_succ hroom)]

theorem ofItems?_tree {items : List Json} (h : ∀ item ∈ items, ofTree? item.tree = some item) :
    ofItems? (treeItems items) = some items := by
  induction items with
  | nil => rfl
  | cons item items ih =>
    rw [treeItems, ofItems?, h item List.mem_cons_self]
    simp [ih fun other hother => h other (List.mem_cons_of_mem _ hother)]

theorem ofEntries?_tree {entries : List (String × Json)}
    (h : ∀ entry ∈ entries, ofTree? entry.2.tree = some entry.2) :
    ofEntries? (treeEntries entries) = some entries := by
  induction entries with
  | nil => rfl
  | cons entry entries ih =>
    have hlater := ih fun other hother => h other (List.mem_cons_of_mem _ hother)
    simp [treeEntries, ofEntries?, h entry List.mem_cons_self, hlater]

theorem toJson_of_isFinite {n : Number} (h : n.IsFinite) : n.toJson = .number n := by
  cases n with
  | integer n => rfl
  | float x =>
    rw [Number.IsFinite] at h
    rw [Number.toJson, if_pos h]

/-- A value with distinct keys and finite numbers is kept as it is. -/
theorem ofTree?_tree {value : Json} (h : value.Regular) : ofTree? value.tree = some value := by
  induction h with
  | null | bool | text => rfl
  | number hn => rw [tree, ofTree?, toJson_of_isFinite hn]
  | list _ ih => rw [tree, ofTree?, ofItems?_tree ih, Option.map_some]
  | object distinct _ ih =>
    rw [tree, ofTree?, ofEntries?_tree ih, Option.map_some, Table.ofPairs_of_nodup distinct]

end Json

end SchemaCompiler
