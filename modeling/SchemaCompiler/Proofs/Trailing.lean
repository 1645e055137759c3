import SchemaCompiler.Proofs.Lookahead
import SchemaCompiler.Proofs.Nesting

/-!
# What follows the root is ignored

Nothing checks that a JSON text ends behind its root. A text that is a document is the same document with
any text behind it, be it garbage or a second document.

The readers do not look past what they read, but a reading that broke off has looked at everything. So a
document has to come from a reading that went through. Of the two wordings of a break it is the weaker one
that settles this: a document may hold values that were only passed over.

## What is proved

* `not_passable_of_readValue` — a reading that broke off leaves a break that is noticed even when it is
  passed over.
* `passable_of_decode` — in a tree that is a document every part can be passed over, since whatever asks
  for a value is stricter than what passes it over.
* `parse_append` — so a document does not depend on what follows its root.
-/

namespace SchemaCompiler

open Traversal

/-! ### Passable trees -/

namespace Tree

/-- Whether a tree is passed over without a fault. -/
def Passable (tree : Tree) : Prop :=
  tree.skipFault? = none

theorem skipFault?_untagged : ∀ tree : Tree, tree.untagged.skipFault? = tree.skipFault?
  | .tagged _ value => (skipFault?_untagged value).trans (by rw [skipFault?])
  | .null | .bool _ | .number _ | .text _ | .list _ | .map _ | .broken _ => rfl

theorem passable_untagged {tree : Tree} : tree.untagged.Passable ↔ tree.Passable := by
  rw [Passable, skipFault?_untagged, Passable]

theorem passable_list {items : List Tree} :
    (list items).Passable ↔ ∀ item ∈ items, item.Passable := by
  rw [Passable, skipFault?]
  induction items with
  | nil => simp [skipFaultItems?]
  | cons item items ih => simp [skipFaultItems?, ih, Passable]

theorem passable_map {entries : List (Tree × Tree)} :
    (map entries).Passable ↔ ∀ entry ∈ entries, entry.1.Passable ∧ entry.2.Passable := by
  rw [Passable, skipFault?]
  induction entries with
  | nil => simp [skipFaultEntries?]
  | cons entry entries ih => simp [skipFaultEntries?, ih, Passable]

end Tree

/-! ### Readings that broke off -/

namespace Json

section

variable {cs : List Char} {place : Break}

theorem skipped_of_nextItem {first : Bool} (h : nextItem first cs = .broken place) :
    place.skipped ≠ none := by
  unfold nextItem at h
  split at h
  · cases h
    nofun
  · cases h
  · split_ifs at h
    · split at h <;> cases h <;> nofun
    · cases h
      nofun

theorem skipped_of_nextEntry {first : Bool} (h : nextEntry first cs = .broken place) :
    place.skipped ≠ none := by
  unfold nextEntry at h
  split at h
  · cases h
    nofun
  · cases h
  · split_ifs at h
    · cases h
      nofun
    · split at h <;> cases h <;> nofun
    · cases h
      nofun

theorem skipped_of_colon (h : colon cs = .error place) : place.skipped ≠ none := by
  unfold colon at h
  split at h <;> cases h <;> nofun

theorem not_passable_broken (h : place.skipped ≠ none) : ¬ (Tree.broken place).Passable := by
  rwa [Tree.Passable, Tree.skipFault?]

end

section

variable {cs : List Char} {tree : Tree}

theorem not_passable_of_readKeyword {value : Tree} {letters : List Char}
    (h : readKeyword value letters cs = (tree, none)) : ¬ tree.Passable := by
  fun_induction readKeyword value letters cs with
  | case1 => cases h
  | case2 =>
    cases h
    exact not_passable_broken (Option.some_ne_none _)
  | case3 _ _ _ ih => exact ih h
  | case4 =>
    cases h
    exact not_passable_broken (Option.some_ne_none _)

theorem not_passable_of_readText (h : readText cs = (tree, none)) : ¬ tree.Passable := by
  unfold readText at h
  split at h
  · cases h
  · split at h
    · cases h
    · cases h
      exact not_passable_broken (Option.some_ne_none _)

theorem not_passable_of_readNumber (h : readNumber cs = (tree, none)) : ¬ tree.Passable := by
  unfold readNumber at h
  split at h
  · cases h
    exact not_passable_broken (Option.some_ne_none _)
  · split at h <;> cases h

end

mutual

/-- A reading that broke off is noticed also where nothing needs the value. -/
theorem not_passable_of_readValue {bound : Nat} {cs : List Char} {tree : Tree}
    (h : readValue bound cs = (tree, none)) : ¬ tree.Passable := by
  cases bound with
  | zero =>
    cases h
    exact not_passable_broken (Option.some_ne_none _)
  | succ bound =>
    rw [readValue] at h
    split at h
    · cases h
      exact not_passable_broken (Option.some_ne_none _)
    · split_ifs at h
      · exact not_passable_of_readText h
      · obtain ⟨items, hitems, rfl⟩ := exists_of_pair_eq h
        obtain ⟨item, hitem, hbroken⟩ := exists_not_passable_of_readItems hitems
        exact fun hpass => hbroken (Tree.passable_list.mp hpass item hitem)
      · obtain ⟨entries, hentries, rfl⟩ := exists_of_pair_eq h
        obtain ⟨entry, hentry, hbroken⟩ := exists_not_passable_of_readEntries hentries
        exact fun hpass => hbroken (Tree.passable_map.mp hpass entry hentry)
      · exact not_passable_of_readKeyword h
      · exact not_passable_of_readKeyword h
      · exact not_passable_of_readKeyword h
      · exact not_passable_of_readNumber h
      · cases h
        exact not_passable_broken (Option.some_ne_none _)

theorem exists_not_passable_of_readItems {bound : Nat} {first : Bool} {cs : List Char}
    {items : List Tree} (h : readItems bound first cs = (items, none)) :
    ∃ item ∈ items, ¬ item.Passable := by
  cases bound with
  | zero =>
    cases h
    exact ⟨_, List.mem_cons_self, not_passable_broken (Option.some_ne_none _)⟩
  | succ bound =>
    rw [readItems] at h
    split at h
    · cases h
    · next place hnext =>
      cases h
      exact ⟨_, List.mem_cons_self, not_passable_broken (skipped_of_nextItem hnext)⟩
    · split at h
      · next item hitem =>
        cases h
        exact ⟨item, List.mem_cons_self, not_passable_of_readValue hitem⟩
      · obtain ⟨later, hlater, rfl⟩ := exists_of_pair_eq h
        obtain ⟨item, hitem, hbroken⟩ := exists_not_passable_of_readItems hlater
        exact ⟨item, List.mem_cons_of_mem _ hitem, hbroken⟩

theorem exists_not_passable_of_readEntries {bound : Nat} {first : Bool} {cs : List Char}
    {entries : List (Tree × Tree)} (h : readEntries bound first cs = (entries, none)) :
    ∃ entry ∈ entries, ¬ (entry.1.Passable ∧ entry.2.Passable) := by
  cases bound with
  | zero =>
    cases h
    exact ⟨_, List.mem_cons_self, not_and_of_not_left _ (not_passable_broken (Option.some_ne_none _))⟩
  | succ bound =>
    rw [readEntries] at h
    split at h
    · cases h
    · next place hnext =>
      cases h
      have hbroken := not_passable_broken (skipped_of_nextEntry hnext)
      exact ⟨_, List.mem_cons_self, not_and_of_not_left _ hbroken⟩
    · split at h
      · next key hkey =>
        cases h
        exact ⟨_, List.mem_cons_self, not_and_of_not_left _ (not_passable_of_readText hkey)⟩
      · split at h
        · next place hcolon =>
          cases h
          have hbroken := not_passable_broken (skipped_of_colon hcolon)
          exact ⟨_, List.mem_cons_self, not_and_of_not_right _ hbroken⟩
        · split at h
          · next value hvalue =>
            cases h
            exact ⟨_, List.mem_cons_self, not_and_of_not_right _ (not_passable_of_readValue hvalue)⟩
          · obtain ⟨later, hlater, rfl⟩ := exists_of_pair_eq h
            obtain ⟨entry, hentry, hbroken⟩ := exists_not_passable_of_readEntries hlater
            exact ⟨entry, List.mem_cons_of_mem _ hentry, hbroken⟩

end

end Json

/-! ### Decoded trees -/

section

variable {α : Type} {format : Format} {room : Nat} {tree : Tree}

theorem mismatch_ne_ok {wanted : Wanted} (value : α) : mismatch tree wanted ≠ .ok value := by
  cases tree <;> nofun

theorem passable_of_untagged_eq_text {text : String} (h : tree.untagged = .text text) :
    tree.Passable := by
  rw [← Tree.passable_untagged, h]
  rfl

theorem passable_of_text? {text : String} (h : tree.text? = some text) : tree.Passable := by
  unfold Tree.text? at h
  split at h
  · next htree => exact passable_of_untagged_eq_text htree
  · cases h

theorem passable_of_decodeText {text : String} (h : decodeText tree = .ok text) : tree.Passable := by
  unfold decodeText at h
  split at h
  · next htree => exact passable_of_untagged_eq_text htree
  · exact absurd h (mismatch_ne_ok _)

theorem passable_of_passOver (h : passOver tree = .ok ()) : tree.Passable := by
  unfold passOver at h
  split at h
  · cases h
  · assumption

mutual

/-- What can be read to its end can be passed over. -/
theorem passable_of_checkReadable {room : Nat} : ∀ {tree : Tree},
    tree.checkReadable room = .ok () → tree.Passable
  | .null, _ | .bool _, _ | .number _, _ | .text _, _ => rfl
  | .broken _, h | .tagged _ _, h => by cases h
  | .list items, h => by
    cases room with
    | zero => cases h
    | succ room => exact Tree.passable_list.mpr (passable_of_checkReadableItems h)
  | .map entries, h => by
    cases room with
    | zero => cases h
    | succ room => exact Tree.passable_map.mpr (passable_of_checkReadableEntries h)

theorem passable_of_checkReadableItems {room i : Nat} : ∀ {items : List Tree},
    Tree.checkReadableItems room i items = .ok () → ∀ item ∈ items, item.Passable
  | [], _ => nofun
  | item :: items, h => by
    rw [Tree.checkReadableItems] at h
    split at h
    · next hitem =>
      exact List.forall_mem_cons.mpr
        ⟨passable_of_checkReadable (eq_ok_of_within hitem), passable_of_checkReadableItems h⟩
    · cases h

theorem passable_of_checkReadableEntries {room : Nat} : ∀ {entries : List (Tree × Tree)},
    Tree.checkReadableEntries room entries = .ok () →
      ∀ entry ∈ entries, entry.1.Passable ∧ entry.2.Passable
  | [], _ => nofun
  | (key, value) :: entries, h => by
    rw [Tree.checkReadableEntries] at h
    split at h
    · cases h
    · next hkey =>
      split at h
      · next hvalue =>
        exact List.forall_mem_cons.mpr
          ⟨⟨passable_of_checkReadable hkey, passable_of_checkReadable (eq_ok_of_within hvalue)⟩,
            passable_of_checkReadableEntries h⟩
      · cases h

end

theorem passable_of_lenient {choice : Choice} {shape? : Tree → Option α} {value : α}
    (h : lenient choice shape? room tree = .ok value) : tree.Passable := by
  unfold lenient at h
  split at h
  · cases h
  · next hreadable => exact passable_of_checkReadable hreadable

mutual

/-- What is a JSON value can be passed over. -/
theorem passable_of_decodeJson {room : Nat} : ∀ {tree : Tree} {value : Json},
    decodeJson room tree = .ok value → tree.Passable
  | .null, _, _ | .bool _, _, _ | .number _, _, _ | .text _, _, _ => rfl
  | .broken _, _, h | .tagged _ _, _, h => by cases h
  | .list items, _, h => by
    cases room with
    | zero => cases h
    | succ room =>
      rw [decodeJson] at h
      split at h
      · next hitems => exact Tree.passable_list.mpr (passable_of_decodeJsonItems hitems)
      · cases h
  | .map entries, _, h => by
    cases room with
    | zero => cases h
    | succ room =>
      rw [decodeJson] at h
      split at h
      · next hentries => exact Tree.passable_map.mpr (passable_of_decodeJsonEntries hentries)
      · cases h

theorem passable_of_decodeJsonItems {room i : Nat} : ∀ {items : List Tree} {values : List Json},
    decodeJsonItems room i items = .ok values → ∀ item ∈ items, item.Passable
  | [], _, _ => nofun
  | item :: items, _, h => by
    rw [decodeJsonItems] at h
    split at h
    · cases h
    · next hitem =>
      split at h
      · next hitems =>
        exact List.forall_mem_cons.mpr
          ⟨passable_of_decodeJson (eq_ok_of_within hitem), passable_of_decodeJsonItems hitems⟩
      · cases h

theorem passable_of_decodeJsonEntries {room : Nat} {wanted : Wanted} :
    ∀ {entries : List (Tree × Tree)} {pairs : List (String × Json)},
      decodeJsonEntries room wanted entries = .ok pairs →
        ∀ entry ∈ entries, entry.1.Passable ∧ entry.2.Passable
  | [], _, _ => nofun
  | (key, value) :: entries, _, h => by
    rw [decodeJsonEntries] at h
    split at h
    · cases h
    · next hkey =>
      split at h
      · cases h
      · next hvalue =>
        split at h
        · next hentries =>
          have hkey := passable_of_text? (text?_eq_of_decodeKey hkey)
          have hvalue := passable_of_decodeJson (eq_ok_of_within hvalue)
          exact List.forall_mem_cons.mpr ⟨⟨hkey, hvalue⟩, passable_of_decodeJsonEntries hentries⟩
        · cases h

end

theorem passable_of_decodeOption {decode : Tree → Except Fault α} {value? : Option α}
    (hdecode : ∀ {value}, decode tree = .ok value → tree.Passable)
    (h : decodeOption decode tree = .ok value?) : tree.Passable := by
  by_cases hnull : tree = .null
  · rw [hnull]
    rfl
  · obtain ⟨value, hvalue, -⟩ := decodeOption_eq_ok hnull h
    exact hdecode hvalue

theorem passable_of_decodeList {decode : Nat → Tree → Except Fault α} {values : List α}
    (hdecode : ∀ {room item value}, decode room item = .ok value → item.Passable)
    (h : decodeList format decode room tree = .ok values) : tree.Passable := by
  rw [← Tree.passable_untagged]
  cases htree : tree.untagged with
  | list items =>
    obtain ⟨_, hitems⟩ := decodeList_eq_ok htree h
    refine Tree.passable_list.mpr fun item hitem => ?_
    obtain ⟨i, hi⟩ := List.mem_iff_getElem?.mp hitem
    obtain ⟨value, -, hvalue⟩ := exists_getElem?_of_forall₂ hitems hi
    exact hdecode hvalue
  | null => rfl
  | _ =>
    rw [decodeList, htree] at h
    exact absurd h (mismatch_ne_ok _)

theorem passable_of_decodeMap {decode : Nat → Tree → Except Fault α} {pairs : List (String × α)}
    (hdecode : ∀ {room item value}, decode room item = .ok value → item.Passable)
    (h : decodeMap format decode room tree = .ok pairs) : tree.Passable := by
  rw [← Tree.passable_untagged]
  cases htree : tree.untagged with
  | map entries =>
    obtain ⟨_, hentries⟩ := decodeMap_eq_ok htree h
    refine Tree.passable_map.mpr fun entry hentry => ?_
    obtain ⟨i, hi⟩ := List.mem_iff_getElem?.mp hentry
    obtain ⟨pair, -, hkey, hvalue⟩ := exists_getElem?_of_forall₂ hentries hi
    exact ⟨passable_of_text? hkey, hdecode hvalue⟩
  | null => rfl
  | _ =>
    rw [decodeMap, htree] at h
    exact absurd h (mismatch_ne_ok _)

theorem passable_of_decodeField {key : Key} {fields schema : Schema}
    (h : decodeField format room key fields tree = .ok schema) : tree.Passable := by
  unfold decodeField at h
  cases key <;> obtain ⟨value?, hvalue, -⟩ := bind_eq_ok_iff.mp h
  case reference | title | description => exact passable_of_decodeOption passable_of_decodeText hvalue
  case type => exact passable_of_decodeOption passable_of_decodeJson hvalue
  case required =>
    exact passable_of_decodeOption (passable_of_decodeList passable_of_decodeText) hvalue
  case properties =>
    exact passable_of_decodeOption (passable_of_decodeMap passable_of_lenient) hvalue
  case items => exact passable_of_decodeOption passable_of_lenient hvalue
  case allOf => exact passable_of_decodeOption (passable_of_decodeList passable_of_lenient) hvalue

/-- In the entries of a definition every key is a text, and every value is either read or passed over. -/
theorem passable_of_decodeFields {seen : List Key} {fields schema : Schema}
    {entries : List (Tree × Tree)} (h : decodeFields format room seen fields entries = .ok schema) :
    ∀ entry ∈ entries, entry.1.Passable ∧ entry.2.Passable := by
  induction entries generalizing seen fields with
  | nil => nofun
  | cons entry entries ih =>
    obtain ⟨name, hkey, h⟩ := bind_eq_ok_iff.mp h
    have hkey := passable_of_text? (text?_eq_of_decodeKey hkey)
    split at h
    · obtain ⟨⟨⟩, hvalue, h⟩ := bind_eq_ok_iff.mp h
      have hvalue := passable_of_passOver (eq_ok_of_within hvalue)
      exact List.forall_mem_cons.mpr ⟨⟨hkey, hvalue⟩, ih h⟩
    · split at h
      · cases h
      · obtain ⟨_, hvalue, h⟩ := bind_eq_ok_iff.mp h
        have hvalue := passable_of_decodeField (eq_ok_of_within hvalue)
        exact List.forall_mem_cons.mpr ⟨⟨hkey, hvalue⟩, ih h⟩

theorem eq_nil_of_decodeListEnd {items : List Tree} (h : decodeListEnd items = .ok ()) :
    items = [] := by
  unfold decodeListEnd at h
  split at h
  · rfl
  all_goals cases h

theorem passable_of_decodePositional {i : Nat} {fields schema : Schema} {keys : List Key}
    {items : List Tree} (h : decodePositional format room i fields keys items = .ok schema) :
    ∀ item ∈ items, item.Passable := by
  induction keys generalizing i fields items with
  | nil =>
    obtain ⟨⟨⟩, hend, -⟩ := bind_eq_ok_iff.mp h
    rw [eq_nil_of_decodeListEnd hend]
    nofun
  | cons key keys ih =>
    cases items with
    | nil => nofun
    | cons item items =>
      obtain ⟨_, hitem, h⟩ := bind_eq_ok_iff.mp h
      exact List.forall_mem_cons.mpr ⟨passable_of_decodeField (eq_ok_of_within hitem), ih h⟩

theorem passable_of_decodeSchema {schema : Schema} (h : decodeSchema format room tree = .ok schema) :
    tree.Passable := by
  unfold decodeSchema at h
  rw [← Tree.passable_untagged]
  cases htree : tree.untagged with
  | map entries =>
    rw [htree] at h
    obtain ⟨_, h⟩ := eq_ok_of_enter h
    exact Tree.passable_map.mpr (passable_of_decodeFields h)
  | list items =>
    rw [htree] at h
    cases format with
    | json =>
      obtain ⟨_, h⟩ := eq_ok_of_enter h
      exact Tree.passable_list.mpr (passable_of_decodePositional h)
    | yaml => exact absurd h (mismatch_ne_ok _)
  | null => rfl
  | _ =>
    rw [htree] at h
    exact absurd h (mismatch_ne_ok _)

theorem passable_of_decodeDefinitions {document : Document}
    (h : decodeDefinitions format room tree = .ok document) : tree.Passable := by
  obtain ⟨pairs, hpairs, -⟩ := bind_eq_ok_iff.mp h
  exact passable_of_decodeMap passable_of_decodeSchema hpairs

theorem passable_of_decodeRoot {given : Option Document} {document : Document}
    {entries : List (Tree × Tree)} (h : decodeRoot format room given entries = .ok document) :
    ∀ entry ∈ entries, entry.1.Passable ∧ entry.2.Passable := by
  induction entries generalizing given with
  | nil => nofun
  | cons entry entries ih =>
    obtain ⟨name, hkey, h⟩ := bind_eq_ok_iff.mp h
    have hkey := passable_of_text? (text?_eq_of_decodeKey hkey)
    split at h
    · split at h
      · cases h
      · obtain ⟨_, hvalue, h⟩ := bind_eq_ok_iff.mp h
        have hvalue := passable_of_decodeDefinitions (eq_ok_of_within hvalue)
        exact List.forall_mem_cons.mpr ⟨⟨hkey, hvalue⟩, ih h⟩
    · obtain ⟨⟨⟩, hvalue, h⟩ := bind_eq_ok_iff.mp h
      have hvalue := passable_of_passOver (eq_ok_of_within hvalue)
      exact List.forall_mem_cons.mpr ⟨⟨hkey, hvalue⟩, ih h⟩

theorem passable_of_decodeRootList {document : Document} {items : List Tree}
    (h : decodeRootList format room items = .ok document) : ∀ item ∈ items, item.Passable := by
  cases items with
  | nil => nofun
  | cons item items =>
    obtain ⟨_, hitem, h⟩ := bind_eq_ok_iff.mp h
    obtain ⟨⟨⟩, hend, -⟩ := bind_eq_ok_iff.mp h
    rw [eq_nil_of_decodeListEnd hend, List.forall_mem_singleton]
    exact passable_of_decodeDefinitions (eq_ok_of_within hitem)

/-- A tree that is a document can be passed over, and its text ends with a bracket. -/
theorem passable_of_decode {document : Document} (h : Document.decode .json tree = .ok document) :
    tree.Passable ∧ tree.Closes := by
  unfold Document.decode at h
  rw [← Tree.passable_untagged, Tree.Closes]
  cases htree : tree.untagged with
  | map entries =>
    rw [htree] at h
    obtain ⟨_, h⟩ := eq_ok_of_enter h
    exact ⟨Tree.passable_map.mpr (passable_of_decodeRoot h), trivial⟩
  | list items =>
    rw [htree] at h
    obtain ⟨_, h⟩ := eq_ok_of_enter h
    exact ⟨Tree.passable_list.mpr (passable_of_decodeRootList h), trivial⟩
  | _ =>
    rw [htree] at h
    exact absurd h (mismatch_ne_ok _)

end

/-! ### Texts -/

/-- **What follows the root is ignored.** A text that is a document is the same document with any text
behind it. -/
theorem Document.parse_append {source : String} {document : Document}
    (h : parse .json source = .ok document) (more : String) :
    parse .json (source ++ more) = .ok document := by
  obtain ⟨tree, rest?, hread⟩ : ∃ tree rest?, Json.read source.toList = (tree, rest?) := ⟨_, _, rfl⟩
  have hdecode := (parse_eq_ok_iff (by rw [Tree.ofJson, hread])).mp h
  obtain ⟨hpassable, hcloses⟩ := passable_of_decode hdecode
  cases rest? with
  | none => exact absurd hpassable (Json.not_passable_of_readValue hread)
  | some rest =>
    have hlonger := Json.read_append hread (fun _ => hcloses) more.toList
    refine (parse_eq_ok_iff ?_).mpr hdecode
    rw [Tree.ofJson, String.toList_append, hlonger]

/-- The text of a document with one definition. -/
def voucherText : String :=
  "\x7b\"definitions\":\x7b\"voucher\":\x7b\"type\":\"object\",\"title\":\"Voucher\"\x7d\x7d\x7d"

/-- Its tree. -/
def voucherTree : Tree :=
  .map [(.text "definitions", .map [(.text "voucher",
    .map [(.text "type", .text "object"), (.text "title", .text "Voucher")])])]

/-- Its document. -/
def voucherDocument : Document :=
  ⟨Table.ofList [("voucher", { type := some (.text "object"), title := some "Voucher" })]⟩

/-- Neither a second document nor brackets that close nothing change what is read. -/
theorem voucher_alone_read : Document.parse .json voucherText = .ok voucherDocument ∧
    Document.parse .json (voucherText ++ " \x7b\"definitions\":1\x7d") = .ok voucherDocument ∧
    Document.parse .json (voucherText ++ "]]") = .ok voucherDocument := by
  have htree : Tree.ofJson voucherText = voucherTree := by cbv
  have hparse : Document.parse .json voucherText = .ok voucherDocument :=
    (Document.parse_eq_ok_iff htree).mpr rfl
  exact ⟨hparse, Document.parse_append hparse _, Document.parse_append hparse _⟩

end SchemaCompiler
