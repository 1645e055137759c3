import SchemaCompiler.Generation
import SchemaCompiler.Proofs.ShallowFault
import SchemaCompiler.Yaml.Merge

/-!
# One document in two formats

A JSON text and a YAML text with the same tree are the same document: both are rejected with the same
fault, or both are accepted with the same schemas, and then whatever is made of them is the same. The
formats do differ on other trees, and these are the conditions under which they do not: there is nothing
to merge, the root, the definitions and each of them are maps, and containers are not nested deeper than
JSON allows. What stands inside of a definition is free.
-/

namespace SchemaCompiler

open Traversal

namespace Json

/-- A value in which no object has the key under which YAML merges maps. -/
inductive MergeFree : Json → Prop where
  /-- The empty value. -/
  | null : MergeFree .null
  /-- A truth value. -/
  | bool (b : Bool) : MergeFree (.bool b)
  /-- A number. -/
  | number (n : Number) : MergeFree (.number n)
  /-- A text. -/
  | text (s : String) : MergeFree (.text s)
  /-- An array of such values. -/
  | list {items : List Json} (h : ∀ item ∈ items, MergeFree item) : MergeFree (.list items)
  /-- An object of such values without the key. -/
  | object {entries : List (String × Json)} (absent : Yaml.mergeKey ∉ entries.map Prod.fst)
      (h : ∀ entry ∈ entries, MergeFree entry.2) : MergeFree (.object entries)

attribute [simp] MergeFree.null MergeFree.bool MergeFree.number MergeFree.text

@[simp] theorem mergeFree_list_iff {items : List Json} :
    (list items).MergeFree ↔ ∀ item ∈ items, item.MergeFree :=
  ⟨fun | .list h => h, .list⟩

@[simp] theorem mergeFree_object_iff {entries : List (String × Json)} : (object entries).MergeFree ↔
    Yaml.mergeKey ∉ entries.map Prod.fst ∧ ∀ entry ∈ entries, entry.2.MergeFree :=
  ⟨fun | .object absent h => ⟨absent, h⟩, fun ⟨absent, h⟩ => .object absent h⟩

/-- Whether the root of a document, its definitions and each of them are objects. -/
def IsMapped (root : Json) : Prop :=
  (∃ entries, root = .object entries) ∧ ∀ definitions, root.Has definitionsKey definitions →
    (∃ entries, definitions = .object entries) ∧
      ∀ id definition, definitions.Has id definition → ∃ entries, definition = .object entries

theorem IsMapped.plainDocument {root : Json} (h : root.IsMapped) (format : Format) :
    root.PlainDocument format := by
  refine ⟨.inr h.1, ?_⟩
  rintro entries rfl ⟨name, definitions⟩ hentry rfl
  obtain ⟨hmap, hparts⟩ := h.2 definitions ⟨entries, rfl, hentry⟩
  refine ⟨.inr hmap, ?_⟩
  rintro fields rfl part hpart
  obtain ⟨⟨id, definition⟩, hdefinition, rfl⟩ := List.mem_map.mp hpart
  exact .inr (hparts id definition ⟨fields, rfl, hdefinition⟩)

end Json

/-! ### Merging -/

namespace Yaml

theorem mergeParts_eq_self {α : Type} {merge : α → Except Fault α} {parts : List α}
    (h : ∀ part ∈ parts, merge part = .ok part) : mergeParts merge parts = .ok parts := by
  induction parts with
  | nil => rfl
  | cons part parts ih =>
    obtain ⟨hpart, hparts⟩ := List.forall_mem_cons.mp h
    rw [mergeParts, ih hparts, hpart]
    rfl

theorem mergeEntries_eq_self {entries : List (Tree × Tree)}
    (h : ∀ entry ∈ entries, isMergeKey entry.1 = false) : mergeEntries entries = .ok entries := by
  have hnone : entries.findIdx? (isMergeKey ·.1) = none := List.findIdx?_eq_none_iff.mpr h
  have hextract : extractMerge entries = none := by
    rw [extractMerge, hnone]
  rw [mergeEntries, hextract]

/-- Where nothing asks for it nothing is merged. -/
theorem mergeTree_tree {value : Json} (h : value.MergeFree) (bound : Nat) :
    mergeTree bound value.tree = .ok value.tree := by
  induction h generalizing bound with
  | null | bool | number | text => cases bound <;> rfl
  | @list items _ ih =>
    cases bound with
    | zero => rfl
    | succ bound =>
      rw [Json.tree, mergeTree, Json.treeItems_eq_map, mergeParts_eq_self]
      · rfl
      · intro part hpart
        obtain ⟨item, hitem, rfl⟩ := List.mem_map.mp hpart
        exact ih item hitem bound
  | @object entries absent _ ih =>
    cases bound with
    | zero => rfl
    | succ bound =>
      have hkeys : ∀ entry ∈ Json.treeEntries entries, isMergeKey entry.1 = false := by
        rw [Json.treeEntries_eq_map]
        intro entry hentry
        obtain ⟨⟨name, part⟩, hpart, rfl⟩ := List.mem_map.mp hentry
        have hne : name ≠ mergeKey := fun heq => absent (heq ▸ List.mem_map_of_mem hpart)
        simpa [isMergeKey] using hne
      have hparts : mergeParts (fun entry => do .ok (entry.1, ← mergeTree bound entry.2))
          (Json.treeEntries entries) = .ok (Json.treeEntries entries) := by
        rw [Json.treeEntries_eq_map]
        refine mergeParts_eq_self fun entry hentry => ?_
        obtain ⟨⟨name, part⟩, hpart, rfl⟩ := List.mem_map.mp hentry
        rw [ih (name, part) hpart bound]
        rfl
      rw [Json.tree, mergeTree, mergeEntries_eq_self hkeys]
      exact bind_eq_ok_iff.mpr ⟨_, rfl, bind_eq_ok_iff.mpr ⟨_, hparts, rfl⟩⟩

end Yaml

theorem Tree.ofYaml_of_mergeFree {source : String} {value : Json} (h : value.MergeFree)
    (hsource : Yaml.treeOfScript (.ofText source) = .ok value.tree) :
    Tree.ofYaml source = .ok value.tree := by
  rw [Tree.ofYaml, hsource]
  exact Yaml.mergeTree_tree h _

/-! ### Agreement -/

/-- The tree of a document is decoded alike in both formats. -/
theorem decode_yaml_eq_decode_json {value : Json} (hdepth : value.depth < 128)
    (hmapped : value.IsMapped) :
    Document.decode .yaml value.tree = Document.decode .json value.tree :=
  (outcome_decode (hmapped.plainDocument .yaml) (Nat.le_of_lt_succ hdepth)).unique
    (outcome_decode (hmapped.plainDocument .json) (Nat.le_of_lt_succ hdepth))

/-- **Agreement.** A tree in which there is nothing to merge is left as it is by merging and decoded
alike in both formats. So two texts with this tree are both rejected, for the same fault at the same
place, or both give the same document, from which the same models or the same fault come. -/
theorem formats_agree {value : Json} (hdepth : value.depth < 128) (hmerge : value.MergeFree)
    (hmapped : value.IsMapped) :
    Yaml.mergeTree (Yaml.height value.tree) value.tree = .ok value.tree ∧
    Document.decode .yaml value.tree = Document.decode .json value.tree ∧
    ∀ jsonText yamlText, Tree.ofJson jsonText = value.tree →
      Yaml.treeOfScript (.ofText yamlText) = .ok value.tree →
      ((∃ fault, Document.parse .json jsonText = .error (.content .json fault) ∧
          Document.parse .yaml yamlText = .error (.content .yaml fault)) ∨
        ∃ document, Document.parse .json jsonText = .ok document ∧
          Document.parse .yaml yamlText = .ok document) ∧
      ∀ settings, (Document.parse .json jsonText).toOption.map (Generation.ofDocument settings) =
        (Document.parse .yaml yamlText).toOption.map (Generation.ofDocument settings) := by
  have hdecode := decode_yaml_eq_decode_json hdepth hmapped
  refine ⟨Yaml.mergeTree_tree hmerge _, hdecode, fun jsonText yamlText hjson hyaml => ?_⟩
  rw [Document.parse_json, hjson, Document.parse_yaml, Tree.ofYaml_of_mergeFree hmerge hyaml]
  simp only [hdecode]
  cases Document.decode .json value.tree with
  | error fault => exact ⟨.inl ⟨fault, rfl, rfl⟩, fun _ => rfl⟩
  | ok document => exact ⟨.inr ⟨document, rfl, rfl⟩, fun _ => rfl⟩

/-- A document with one definition, whose only property is no schema. -/
def kennelValue : Json :=
  .object [("definitions", .object [("dog", .object [("type", .text "object"),
    ("properties", .object [("tame", .bool true)])])])]

/-- Its JSON text. -/
def kennelJson : String :=
  "\x7b\"definitions\":\x7b\"dog\":\x7b\"type\":\"object\",\"properties\":\x7b\"tame\":true\x7d\x7d\x7d\x7d"

/-- A YAML text of it. -/
def kennelYaml : String :=
  "\"definitions\":\n  \"dog\":\n    \"type\": \"object\"\n    \"properties\": \x7b\"tame\": true\x7d\n"

/-- The events of the YAML text. -/
def kennelEvents : List Yaml.Event :=
  [.mapStart {}, .scalar {} "definitions" false, .mapStart {}, .scalar {} "dog" false, .mapStart {},
   .scalar {} "type" false, .scalar {} "object" false, .scalar {} "properties" false, .mapStart {},
   .scalar {} "tame" false, .scalar {} "true" true, .mapEnd, .mapEnd, .mapEnd, .mapEnd]

theorem ofText_kennelYaml : Yaml.Script.ofText kennelYaml = ⟨kennelEvents, .complete⟩ := by
  have h : (Yaml.Script.ofText kennelYaml).events = kennelEvents ∧
      (Yaml.Script.ofText kennelYaml).ending = .complete := by decide +kernel
  rw [← h.1, ← h.2]

/-- Both texts give one document. -/
theorem kennel_agrees : kennelValue.depth < 128 ∧ kennelValue.MergeFree ∧ kennelValue.IsMapped ∧
    ∃ document, Document.parse .json kennelJson = .ok document ∧
      Document.parse .yaml kennelYaml = .ok document := by
  have hdepth : kennelValue.depth < 128 := by decide
  have hmerge : kennelValue.MergeFree := by simp [kennelValue, Yaml.mergeKey]
  have hmapped : kennelValue.IsMapped := by
    refine ⟨⟨_, rfl⟩, ?_⟩
    rintro definitions ⟨_, ⟨⟩, hdefinitions⟩
    obtain ⟨-, rfl⟩ := Prod.mk.inj (List.mem_singleton.mp hdefinitions)
    refine ⟨⟨_, rfl⟩, ?_⟩
    rintro id definition ⟨_, ⟨⟩, hdefinition⟩
    obtain ⟨-, rfl⟩ := Prod.mk.inj (List.mem_singleton.mp hdefinition)
    exact ⟨_, rfl⟩
  have hjson : Tree.ofJson kennelJson = kennelValue.tree := by cbv
  have hyaml : Yaml.treeOfScript (.ofText kennelYaml) = .ok kennelValue.tree := by
    rw [ofText_kennelYaml]
    cbv
  obtain ⟨hagree, -⟩ := (formats_agree hdepth hmerge hmapped).2.2 _ _ hjson hyaml
  refine ⟨hdepth, hmerge, hmapped, hagree.resolve_left ?_⟩
  rintro ⟨fault, hfault, -⟩
  have hread : (Document.decode .json kennelValue.tree).toOption.isSome = true := by decide +kernel
  rw [← Document.toOption_parse hjson, hfault] at hread
  cases hread

end SchemaCompiler
