import SchemaCompiler.Proofs.Decoding
import SchemaCompiler.Schema.Parse

/-!
# Decoding documents

Above the fields a document is held to its types: the root, the map of the definitions and each
definition. For every JSON value that is not nested too deep, here is which fault is reported and which
document is given otherwise (`outcome_decode`). The faults of a value are listed in the order of the
document (`Json.faults`). The document has for each definition the schema that the lenient reader finds
in it (`Json.document?`), so being held to the types of the fields only ever rejects.

In JSON every value has such an outcome. In YAML the same holds of the documents whose root,
definitions and every definition are maps.
-/

namespace SchemaCompiler

open Traversal

/-! ### What there is to decode -/

namespace Json

/-- The faults of the entries of a definition that has the fields `seen` already. -/
def fieldsFaults (seen : List Key) : List (String × Json) → List Fault
  | [] => []
  | (name, value) :: entries =>
    match Key.ofText? name with
    | none => fieldsFaults seen entries
    | some key =>
      if key ∈ seen then [.here (.duplicateField name)]
      else
        (key.faults value).map (Fault.under (.key name)) ++ fieldsFaults (key :: seen) entries

/-- The faults of the items of a definition that is given as a list of its fields, `i` of which come
before. -/
def positionalFaults (i : Nat) : List Key → List Json → List Fault
  | [], [] => []
  | [], _ :: _ => [.here (.unreadable .trailingCharacters)]
  | _ :: _, [] => [.here (.tooFewFields i)]
  | key :: keys, item :: items =>
    (key.faults item).map (Fault.under (.index i)) ++ positionalFaults (i + 1) keys items

/-- The faults of a definition. -/
def definitionFaults : Json → List Fault
  | .object entries => fieldsFaults [] entries
  | .list items => positionalFaults 0 Key.all items
  | other => [.here (.mismatch (.ofTree other.tree) .schema)]

/-- The faults of the entries of a root; the flag tells whether its definitions are given already. -/
def rootFaults (given : Bool) : List (String × Json) → List Fault
  | [] => []
  | (name, value) :: entries =>
    if name = definitionsKey then
      if given then [.here (.duplicateField name)]
      else
        (mapFaults definitionFaults value).map (Fault.under (.key name)) ++ rootFaults true entries
    else rootFaults given entries

/-- The faults of a document in their order. -/
def faults : Json → List Fault
  | .object entries => rootFaults false entries
  | .list [] => []
  | .list (item :: items) =>
    (mapFaults definitionFaults item).map (Fault.under (.index 0)) ++
      if items.isEmpty then [] else [.here (.unreadable .trailingCharacters)]
  | other => [.here (.mismatch (.ofTree other.tree) .document)]

/-- The schema that the lenient reader finds in a value. -/
def schema? (value : Json) : Option Schema :=
  (Node.ofTree? value.tree).bind Node.schema?

/-- The document whose definitions are the schemas that the lenient reader finds in a map. -/
def definitions? : Json → Option Document
  | .object entries =>
    (entries.mapM fun entry : String × Json => (schema? entry.2).map (entry.1, ·)).map fun pairs =>
      ⟨Table.ofList pairs⟩
  | _ => none

/-- The document of the entries of a root, whose definitions may be given already. -/
def root? (document : Option Document) : List (String × Json) → Option Document
  | [] => some (document.getD {})
  | (name, value) :: entries =>
    if name = definitionsKey then
      match document with
      | some _ => none
      | none => value.definitions?.bind fun document => root? (some document) entries
    else root? document entries

/-- The document that the lenient reader finds in a value. -/
def document? : Json → Option Document
  | .object entries => root? none entries
  | .list [] => some {}
  | .list [item] => item.definitions?
  | _ => none

end Json

/-! ### Definitions -/

section

variable {format : Format} {room : Nat}

/-- A field of a definition sets its own slot and no other. -/
theorem decodeField_eq_bind (format : Format) (room : Nat) (key : Key) (fields : Schema)
    (tree : Tree) : decodeField format room key fields tree =
      decodeField format room key {} tree >>= fun given => .ok (fields.put key given) := by
  cases key with
  | reference | title | description =>
    rw [decodeField, decodeField]
    cases decodeOption decodeText tree <;> rfl
  | type =>
    rw [decodeField, decodeField]
    cases decodeOption (decodeJson room) tree <;> rfl
  | required =>
    rw [decodeField, decodeField]
    cases decodeOption (decodeList format (fun _ => decodeText) room) tree <;> rfl
  | properties =>
    rw [decodeField, decodeField]
    cases decodeOption (decodeMap format (lenient .node Node.ofTree?) room) tree <;> rfl
  | items =>
    rw [decodeField, decodeField]
    cases decodeOption (lenient .items Items.ofTree? room) tree <;> rfl
  | allOf =>
    rw [decodeField, decodeField]
    cases decodeOption (decodeList format (lenient .node Node.ofTree?) room) tree <;> rfl

theorem outcome_decodeField_of_fresh (format : Format) {key : Key} {fields : Schema} {value : Json}
    (h : value.depth ≤ room) (fresh : fields.slot key = ({} : Schema).slot key) :
    Outcome (decodeField format room key fields value.tree) (key.faults value)
      (Node.setField? key fields value.tree) := by
  rw [decodeField_eq_bind, Node.setField?_of_fresh _ fresh]
  exact (outcome_decodeField key h).map (fields.put key)

theorem decodeFields_cons_nothing {seen : List Key} {fields : Schema} {name : String} (value : Json)
    (entries : List (Tree × Tree)) (h : Key.ofText? name = none) :
    decodeFields format room seen fields ((.text name, value.tree) :: entries) =
      decodeFields format room seen fields entries := by
  simp [decodeFields, h, Json.passOver_tree, Json.within_tree, Except.mapError, bind, Except.bind]

theorem decodeFields_cons_seen {seen : List Key} {fields : Schema} {name : String} {key : Key}
    (value : Tree) (entries : List (Tree × Tree)) (h : Key.ofText? name = some key)
    (hseen : key ∈ seen) : decodeFields format room seen fields ((.text name, value) :: entries) =
      .error (.here (.duplicateField name)) := by
  simp [decodeFields, h, hseen, bind, Except.bind]

theorem decodeFields_cons_field {seen : List Key} {fields : Schema} {name : String} {key : Key}
    (value : Tree) (entries : List (Tree × Tree)) (h : Key.ofText? name = some key)
    (hseen : key ∉ seen) : decodeFields format room seen fields ((.text name, value) :: entries) =
      within (.key name) value (decodeField format room key fields value) >>= fun fields =>
        decodeFields format room (key :: seen) fields entries := by
  simp [decodeFields, h, hseen, bind, Except.bind]

theorem outcome_decodeFields {seen : List Key} {fields : Schema} {entries : List (String × Json)}
    (h : Json.depthEntries entries ≤ room)
    (fresh : ∀ key ∉ seen, fields.slot key = ({} : Schema).slot key) :
    Outcome (decodeFields format room seen fields (Json.treeEntries entries))
      (Json.fieldsFaults seen entries) (Node.fieldsOf? seen fields (Json.treeEntries entries)) := by
  induction entries generalizing seen fields with
  | nil => exact .ok fields
  | cons entry entries ih =>
    obtain ⟨name, value⟩ := entry
    rw [Json.depthEntries, Nat.max_le] at h
    rw [Json.treeEntries]
    cases hkey : Key.ofText? name with
    | none =>
      have hselected : Selected.ofTree (.text name) = .nothing := by simp [Selected.ofTree, hkey]
      rw [decodeFields_cons_nothing value _ hkey, Node.fieldsOf?_cons_nothing hselected,
        Json.fieldsFaults, hkey]
      exact ih h.2 fresh
    | some key =>
      have hselected : Selected.ofTree (.text name) = .field key := by simp [Selected.ofTree, hkey]
      by_cases hseen : key ∈ seen
      · rw [decodeFields_cons_seen _ _ hkey hseen]
        simpa [Json.fieldsFaults, hkey, hseen, Node.fieldsOf?, hselected] using Outcome.error _
      · have hfield := (outcome_decodeField_of_fresh format h.1 (fresh key hseen)).within
          (.key name) value
        have hfields : Node.fieldsOf? seen fields
            ((.text name, value.tree) :: Json.treeEntries entries) =
              (Node.setField? key fields value.tree).bind fun fields =>
                Node.fieldsOf? (key :: seen) fields (Json.treeEntries entries) := by
          rw [Node.fieldsOf?_cons_field hselected hseen (fresh key hseen),
            Node.setField?_of_fresh _ (fresh key hseen), Option.bind_map]
          rfl
        rw [decodeFields_cons_field _ _ hkey hseen, hfields, Json.fieldsFaults, hkey]
        simp only [hseen, if_false]
        refine hfield.bind fun fields hset => ih h.2 ?_
        rw [Node.setField?_of_fresh _ (fresh key hseen)] at hset
        obtain ⟨given, -, rfl⟩ := Option.map_eq_some_iff.mp hset
        exact Node.fresh_put fresh

theorem outcome_decodePositional {i : Nat} {fields : Schema} {keys : List Key} {items : List Json}
    (h : Json.depthItems items ≤ room) (distinct : keys.Nodup)
    (fresh : ∀ key ∈ keys, fields.slot key = ({} : Schema).slot key) :
    Outcome (decodePositional format room i fields keys (Json.treeItems items))
      (Json.positionalFaults i keys items) (Node.positional? keys fields (Json.treeItems items)) := by
  induction items generalizing i keys fields with
  | nil => cases keys <;> exact ⟨rfl, rfl⟩
  | cons item items ih =>
    cases keys with
    | nil => cases item <;> exact ⟨rfl, rfl⟩
    | cons key keys =>
      rw [Json.depthItems, Nat.max_le] at h
      obtain ⟨hkey, distinct⟩ := List.nodup_cons.mp distinct
      obtain ⟨hfresh, fresh⟩ := List.forall_mem_cons.mp fresh
      have hfield := (outcome_decodeField_of_fresh format h.1 hfresh).within (.index i) item
      have hfields : Node.positional? (key :: keys) fields (item.tree :: Json.treeItems items) =
          (Node.setField? key fields item.tree).bind fun fields =>
            Node.positional? keys fields (Json.treeItems items) := by
        rw [Node.positional?]
        cases Node.setField? key fields item.tree <;> rfl
      rw [Json.treeItems, decodePositional, Json.positionalFaults, hfields]
      refine hfield.bind fun given hset => ih h.2 distinct fun other hother => ?_
      rw [Node.setField?_of_fresh _ hfresh] at hset
      obtain ⟨given, -, rfl⟩ := Option.map_eq_some_iff.mp hset
      have hne : other ≠ key := fun e => hkey (e ▸ hother)
      rw [Fields.slot_put_of_ne _ _ hne, fresh other hother]

theorem bind_schema?_orLoose (schema? : Option Schema) (tree : Tree) :
    (Node.orLoose schema? tree).bind Node.schema? = schema? := by
  cases schema? with
  | none =>
    rw [Node.orLoose]
    cases Json.ofTree? tree <;> rfl
  | some schema => rfl

theorem schema?_object (entries : List (String × Json)) :
    Json.schema? (.object entries) = Node.fieldsOf? [] {} (Json.treeEntries entries) := by
  rw [Json.schema?, Json.tree, Node.ofTree?, bind_schema?_orLoose]

theorem schema?_list (items : List Json) :
    Json.schema? (.list items) = Node.positional? Key.all {} (Json.treeItems items) := by
  rw [Json.schema?, Json.tree, Node.ofTree?, bind_schema?_orLoose]

/-- Whether a value is a map or the format is JSON. In YAML lists and the empty value follow other
rules. -/
def Json.Plain (format : Format) (value : Json) : Prop :=
  format = .json ∨ ∃ entries, value = .object entries

/-- **Definitions.** A definition has the faults of its fields, and without any it is the schema that
the lenient reader finds in it. -/
theorem outcome_decodeSchema {value : Json} (hplain : value.Plain format) (h : value.depth ≤ room) :
    Outcome (decodeSchema format room value.tree) value.definitionFaults value.schema? := by
  cases value with
  | object entries =>
    rw [schema?_object]
    cases room with
    | zero => simp [Json.depth] at h
    | succ room =>
      rw [Json.depth] at h
      exact outcome_decodeFields (Nat.le_of_succ_le_succ h) fun _ _ => rfl
  | list items =>
    obtain rfl | ⟨entries, h⟩ := hplain
    · rw [schema?_list]
      cases room with
      | zero => simp [Json.depth] at h
      | succ room =>
        rw [Json.depth] at h
        exact outcome_decodePositional (Nat.le_of_succ_le_succ h) Key.nodup_all fun _ _ => rfl
    · cases h
  | _ =>
    obtain rfl | ⟨entries, h⟩ := hplain
    · exact ⟨rfl, rfl⟩
    · cases h

/-! ### Documents -/

/-- Whether a value and the values of its entries are maps or the format is JSON. -/
def Json.PlainMap (format : Format) (value : Json) : Prop :=
  value.Plain format ∧
    ∀ entries, value = .object entries → ∀ part ∈ entries.map Prod.snd, part.Plain format

/-- The definitions have the faults of each in order. -/
theorem outcome_decodeDefinitions {value : Json} (hplain : value.PlainMap format)
    (h : value.depth ≤ room) :
    Outcome (decodeDefinitions format room value.tree) (value.mapFaults Json.definitionFaults)
      value.definitions? := by
  have hnull : value = .null → format = .json := by
    rintro rfl
    obtain hformat | ⟨entries, h⟩ := hplain.1
    · exact hformat
    · cases h
  have hmap := (outcome_decodeMap format hnull h fun part room hroom ⟨entries, hentries, hpart⟩ =>
    outcome_decodeSchema (hplain.2 entries hentries part hpart) hroom).map
      fun pairs => (⟨Table.ofList pairs⟩ : Document)
  cases value <;> exact hmap

/-- Whether the root of a document, its definitions and each of them are maps or the format is JSON. -/
def Json.PlainDocument (format : Format) (value : Json) : Prop :=
  value.Plain format ∧ ∀ entries, value = .object entries →
    ∀ entry ∈ entries, entry.1 = definitionsKey → entry.2.PlainMap format

theorem decodeRoot_cons_other {document : Option Document} {name : String} (value : Json)
    (entries : List (Tree × Tree)) (h : name ≠ definitionsKey) :
    decodeRoot format room document ((.text name, value.tree) :: entries) =
      decodeRoot format room document entries := by
  simp [decodeRoot, h, Json.passOver_tree, Json.within_tree, Except.mapError, bind, Except.bind]

theorem decodeRoot_cons_definitions (value : Tree) (entries : List (Tree × Tree)) :
    decodeRoot format room none ((.text definitionsKey, value) :: entries) =
      within (.key definitionsKey) value (decodeDefinitions format room value) >>= fun document =>
        decodeRoot format room (some document) entries := by
  simp [decodeRoot, bind, Except.bind]

theorem outcome_decodeRoot {document : Option Document} {entries : List (String × Json)}
    (hplain : ∀ entry ∈ entries, entry.1 = definitionsKey → entry.2.PlainMap format)
    (h : Json.depthEntries entries ≤ room) :
    Outcome (decodeRoot format room document (Json.treeEntries entries))
      (Json.rootFaults document.isSome entries) (Json.root? document entries) := by
  induction entries generalizing document with
  | nil => exact .ok _
  | cons entry entries ih =>
    obtain ⟨name, value⟩ := entry
    obtain ⟨hfirst, hlater⟩ := List.forall_mem_cons.mp hplain
    rw [Json.depthEntries, Nat.max_le] at h
    rw [Json.treeEntries]
    by_cases hname : name = definitionsKey
    · subst hname
      cases document with
      | some document => exact ⟨rfl, rfl⟩
      | none =>
        have hdefinitions := (outcome_decodeDefinitions (hfirst rfl) h.1).within
          (.key definitionsKey) value
        rw [decodeRoot_cons_definitions]
        exact hdefinitions.bind fun document _ => ih hlater h.2
    · rw [decodeRoot_cons_other value _ hname]
      simpa [Json.rootFaults, Json.root?, hname] using ih hlater h.2

theorem Json.plainMap_json (value : Json) : value.PlainMap .json :=
  ⟨.inl rfl, fun _ _ _ _ => .inl rfl⟩

theorem outcome_decodeListEnd (items : List Json) :
    Outcome (decodeListEnd (Json.treeItems items))
      (if items.isEmpty then [] else [.here (.unreadable .trailingCharacters)])
      (if items.isEmpty then some () else none) := by
  cases items with
  | nil => exact .ok ()
  | cons item items => cases item <;> exact ⟨rfl, rfl⟩

theorem outcome_decodeRootList {items : List Json} (h : Json.depthItems items ≤ room) :
    Outcome (decodeRootList .json room (Json.treeItems items)) (Json.faults (.list items))
      (Json.document? (.list items)) := by
  cases items with
  | nil => exact .ok _
  | cons item items =>
    rw [Json.depthItems, Nat.max_le] at h
    have hdefinitions := (outcome_decodeDefinitions item.plainMap_json h.1).within (.index 0) item
    have hlist := hdefinitions.bind fun document _ =>
      (outcome_decodeListEnd items).map fun _ => document
    refine hlist.of_value_eq ?_
    cases items <;> simp [Json.document?]

/-- **Documents.** A document that is not nested too deep has the faults of its definitions, in the
order of the document, and without any its definitions are the schemas that the lenient reader finds. -/
theorem outcome_decode {value : Json} (hplain : value.PlainDocument format) (h : value.depth ≤ 127) :
    Outcome (Document.decode format value.tree) value.faults value.document? := by
  obtain ⟨room, hmax, hroom⟩ : ∃ room, maxDepth format = room + 1 ∧ value.depth ≤ room + 1 := by
    cases format
    · exact ⟨126, rfl, h⟩
    · exact ⟨127, rfl, Nat.le_succ_of_le h⟩
  obtain ⟨hroot, hentries⟩ := hplain
  cases value with
  | object entries =>
    change Outcome (enter (maxDepth format) fun room =>
      decodeRoot format room none (Json.treeEntries entries)) _ _
    rw [hmax]
    exact outcome_decodeRoot (hentries entries rfl) (Nat.le_of_succ_le_succ hroom)
  | list items =>
    obtain rfl | ⟨entries, h⟩ := hroot
    · change Outcome (enter (maxDepth .json) fun room =>
        decodeRootList .json room (Json.treeItems items)) _ _
      rw [hmax]
      exact outcome_decodeRootList (Nat.le_of_succ_le_succ hroom)
    · cases h
  | _ =>
    obtain rfl | ⟨entries, h⟩ := hroot
    · exact ⟨rfl, rfl⟩
    · cases h

end

theorem Json.plainDocument_json (value : Json) : value.PlainDocument .json :=
  ⟨.inl rfl, fun _ _ entry _ _ => entry.2.plainMap_json⟩

/-! ### Texts -/

namespace Document

theorem parse_json (source : String) : parse .json source =
    (decode .json (.ofJson source)).mapError (.content .json) := by
  unfold parse
  exact Eq.refl _

theorem parse_yaml (source : String) : parse .yaml source =
    match Tree.ofYaml source with
    | .error fault => .error (.text fault)
    | .ok tree => (decode .yaml tree).mapError (.content .yaml) := by
  unfold parse
  exact Eq.refl _

section

variable {source : String} {tree : Tree} (h : Tree.ofJson source = tree)

include h

theorem parse_eq_error_iff {fault : DocumentFault} : parse .json source = .error fault ↔
    ∃ first, decode .json tree = .error first ∧ fault = .content .json first := by
  rw [parse_json, h]
  cases decode .json tree <;> simp [Except.mapError, eq_comm]

theorem parse_eq_ok_iff {document : Document} :
    parse .json source = .ok document ↔ decode .json tree = .ok document := by
  rw [parse_json, h]
  cases decode .json tree <;> simp [Except.mapError]

theorem toOption_parse : (parse .json source).toOption = (decode .json tree).toOption := by
  rw [parse_json, h]
  cases decode .json tree <;> rfl

end

end Document

end SchemaCompiler
