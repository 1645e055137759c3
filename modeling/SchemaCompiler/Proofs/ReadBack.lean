import SchemaCompiler.Json.Printer
import SchemaCompiler.Json.Reader
import SchemaCompiler.Proofs.Value

/-!
# What is written is read back

The text of a JSON value, laid out over several lines, is read back as that value and nothing is left
over (`read_pretty`), provided that each number in it is (`Restored`). So values with the same text are
the same (`eq_of_pretty_eq`).

The reader takes leaves and containers off the front of a text and hands on what is left, so every law
here is about a text with something behind it. Behind a value comes a comma, a line break or nothing
(`Ends`), which is what tells where a number ends. The bound of the reader is met because no part of
a value is longer than its text.
-/

namespace SchemaCompiler.Json

/-! ### Texts -/

theorem hexValue?_hexDigit : ∀ n < 16, hexValue? (hexDigit n) = some n := by
  decide

theorem decodeText_quote (rest : List Char) : decodeText ('"' :: rest) = .ok ([], rest) := by
  rw [decodeText.eq_def]
  rfl

/-- A character that needs no escape stands for itself. -/
theorem decodeText_plain {c : Char} (hquote : c ≠ '"') (hbackslash : c ≠ '\\')
    (hcontrol : ¬ c.toNat < 32) (rest : List Char) :
    decodeText (c :: rest) = prepend c (decodeText rest) := by
  rw [decodeText.eq_def]
  simp only
  rw [if_neg hquote, if_neg hbackslash, if_neg hcontrol]

/-- The escape of a control character is undone. -/
theorem decodeText_control {c : Char} (h : c.toNat < 32) (rest : List Char) :
    decodeText ('\\' :: 'u' :: '0' :: '0' :: hexDigit (c.toNat / 16) :: hexDigit (c.toNat % 16) :: rest) =
      prepend c (decodeText rest) := by
  have hunit : hexUnit? '0' '0' (hexDigit (c.toNat / 16)) (hexDigit (c.toNat % 16)) = some c.toNat := by
    have hzero : hexValue? '0' = some 0 := by decide
    have hhigh := hexValue?_hexDigit (c.toNat / 16) (by omega)
    have hlow := hexValue?_hexDigit (c.toNat % 16) (by omega)
    simp only [hexUnit?, hzero, hhigh, hlow, Option.bind_eq_bind, Option.bind_some, Option.pure_def,
      Option.some.injEq]
    omega
  -- a character this small is no half of a pair of units
  have htrailing : isTrailing c.toNat = false := by
    simp only [isTrailing, Bool.and_eq_false_iff, decide_eq_false_iff_not]
    omega
  have hleading : isLeading c.toNat = false := by
    simp only [isLeading, Bool.and_eq_false_iff, decide_eq_false_iff_not]
    omega
  rw [decodeText]
  simp only [hunit, htrailing, hleading, Char.ofNat_toNat]
  simp

/-- What stands for a character is read as the character. -/
theorem decodeText_escapeChar (c : Char) (rest : List Char) :
    decodeText (escapeChar c ++ rest) = prepend c (decodeText rest) := by
  unfold escapeChar
  split
  iterate 7 simp [decodeText, letterEscape?]
  next hquote hbackslash _ _ _ _ _ =>
    split_ifs with hcontrol
    · exact decodeText_control hcontrol rest
    · exact decodeText_plain hquote hbackslash hcontrol rest

/-- A text is read up to its closing quote. -/
theorem decodeText_flatMap_escapeChar (cs rest : List Char) :
    decodeText (cs.flatMap escapeChar ++ '"' :: rest) = .ok (cs, rest) := by
  induction cs with
  | nil => exact decodeText_quote rest
  | cons c cs ih => rw [List.flatMap_cons, List.append_assoc, decodeText_escapeChar, ih, prepend]

theorem readText_quote (s : String) (rest : List Char) :
    ∃ cs, quote s ++ rest = '"' :: cs ∧ readText cs = (.text s, some rest) := by
  refine ⟨s.toList.flatMap escapeChar ++ '"' :: rest, by simp [quote], ?_⟩
  rw [readText, decodeText_flatMap_escapeChar]
  simp

/-! ### White space -/

theorem skipSpace_cons {c : Char} (h : isSpace c = false) (rest : List Char) :
    skipSpace (c :: rest) = c :: rest := by
  simp [skipSpace, h]

/-- A line break and its indentation are white space. -/
theorem skipSpace_lineBreak (level : Nat) {c : Char} (h : isSpace c = false) (rest : List Char) :
    skipSpace (lineBreak level ++ c :: rest) = c :: rest := by
  have hspaces : ∀ d ∈ lineBreak level, isSpace d = true := by
    intro d hd
    rw [lineBreak, List.mem_cons] at hd
    obtain rfl | hd := hd
    · rfl
    · rw [List.eq_of_mem_replicate hd]
      rfl
  rw [skipSpace, List.dropWhile_append_of_pos hspaces]
  exact skipSpace_cons h rest

/-- White space in front of a value is passed over. -/
theorem readValue_space (bound : Nat) (rest : List Char) :
    readValue bound (' ' :: rest) = readValue bound rest := by
  cases bound with
  | zero => rfl
  | succ bound =>
    have hspace : skipSpace (' ' :: rest) = skipSpace rest := rfl
    rw [readValue, readValue, hspace]

/-! ### What stands between parts -/

theorem nextItem_closed (first : Bool) (level : Nat) (rest : List Char) :
    nextItem first (lineBreak level ++ ']' :: rest) = .closed rest := by
  rw [nextItem, skipSpace_lineBreak level rfl]
  rfl

theorem nextEntry_first (level : Nat) (rest : List Char) :
    nextEntry true (lineBreak level ++ '"' :: rest) = .part rest := by
  rw [nextEntry, skipSpace_lineBreak level rfl]
  rfl

theorem nextEntry_later (level : Nat) (rest : List Char) :
    nextEntry false (',' :: (lineBreak level ++ '"' :: rest)) = .part rest := by
  have hcomma : skipSpace (',' :: (lineBreak level ++ '"' :: rest)) =
      ',' :: (lineBreak level ++ '"' :: rest) := rfl
  simp [nextEntry, hcomma, skipSpace_lineBreak level (c := '"') rfl]

theorem nextEntry_closed (first : Bool) (level : Nat) (rest : List Char) :
    nextEntry first (lineBreak level ++ '\x7d' :: rest) = .closed rest := by
  rw [nextEntry, skipSpace_lineBreak level rfl]
  rfl

/-! ### Values -/

/-- What may stand behind a value. -/
def Ends (rest : List Char) : Prop :=
  rest = [] ∨ ∃ later, rest = ',' :: later ∨ rest = '\n' :: later

theorem ends_lineBreak (level : Nat) (rest : List Char) : Ends (lineBreak level ++ rest) :=
  .inr ⟨_, .inr rfl⟩

theorem ends_prettyItems (level : Nat) (items : List Json) (outer : Nat) (rest : List Char) :
    Ends (prettyItems level items ++ (lineBreak outer ++ rest)) := by
  cases items with
  | nil => exact ends_lineBreak outer rest
  | cons item items =>
    rw [prettyItems]
    exact .inr ⟨_, .inl rfl⟩

theorem ends_prettyEntries (level : Nat) (entries : List (String × Json)) (outer : Nat)
    (rest : List Char) : Ends (prettyEntries level entries ++ (lineBreak outer ++ rest)) := by
  cases entries with
  | nil => exact ends_lineBreak outer rest
  | cons entry entries =>
    rw [prettyEntries]
    exact .inr ⟨_, .inl rfl⟩

end SchemaCompiler.Json

namespace SchemaCompiler

/-- A number that is read back as it was written. -/
structure Number.Restored (n : Number) : Prop where
  /-- It is written like a number. -/
  exists_first : ∃ c cs, Json.numberText n = c :: cs ∧ (c = '-' ∨ c.isDigit = true)
  /-- It is read up to where it ends. -/
  read : ∀ rest, Json.Ends rest → Json.readNumber (Json.numberText n ++ rest) = (.number n, some rest)

theorem Number.restored_integer_zero : (integer 0).Restored where
  exists_first := ⟨'0', [], by decide, by decide⟩
  read := by
    rintro rest (rfl | ⟨later, rfl | rfl⟩) <;> rfl

theorem Number.restored_float_zero : (float 0.0).Restored where
  exists_first := ⟨'0', ['.', '0'], by decide +kernel, by decide⟩
  read := by
    have htext : Json.numberText (float 0.0) = ['0', '.', '0'] := by decide +kernel
    have hread : ∀ rest, Json.Ends rest → NumberText.read (['0', '.', '0'] ++ rest) =
        .ok (⟨false, ['0'], ['0'], none⟩, rest) := by
      rintro rest (rfl | ⟨later, rfl | rfl⟩) <;> rfl
    have hvalue : NumberText.value? ⟨false, ['0'], ['0'], none⟩ = some (.float 0.0) := rfl
    intro rest hrest
    rw [htext, Json.readNumber, hread rest hrest]
    simp only [hvalue]

namespace Json

/-- A value all of whose numbers are read back as they were written. -/
inductive Restored : Json → Prop where
  /-- The empty value. -/
  | null : Restored .null
  /-- A truth value. -/
  | bool (b : Bool) : Restored (.bool b)
  /-- A number. -/
  | number {n : Number} (h : n.Restored) : Restored (.number n)
  /-- A text. -/
  | text (s : String) : Restored (.text s)
  /-- An array of such values. -/
  | list {items : List Json} (h : ∀ item ∈ items, Restored item) : Restored (.list items)
  /-- An object of such values. -/
  | object {entries : List (String × Json)} (h : ∀ entry ∈ entries, Restored entry.2) :
    Restored (.object entries)

/-- A number begins like no other value. -/
theorem ne_of_isDigit {c d : Char} (h : c = '-' ∨ c.isDigit = true) (hsign : d ≠ '-')
    (hd : d.isDigit = false) : c ≠ d := by
  rintro rfl
  rcases h with h | h
  · exact hsign h
  · rw [hd] at h
    cases h

theorem isSpace_of_isDigit {c : Char} (h : c = '-' ∨ c.isDigit = true) : isSpace c = false := by
  simp only [isSpace, Bool.or_eq_false_iff, beq_eq_false_iff_ne]
  refine ⟨⟨⟨?_, ?_⟩, ?_⟩, ?_⟩ <;> exact ne_of_isDigit h (by decide) rfl

/-- No value begins with white space or with a closing bracket. -/
theorem Restored.exists_first {value : Json} (h : value.Restored) (level : Nat) :
    ∃ c cs, prettyChars level value = c :: cs ∧ isSpace c = false ∧ c ≠ ']' := by
  cases h with
  | null => exact ⟨_, _, rfl, by decide⟩
  | bool b => cases b <;> exact ⟨_, _, rfl, by decide⟩
  | number h =>
    obtain ⟨c, cs, htext, hc⟩ := h.exists_first
    exact ⟨c, cs, by rw [prettyChars, htext], isSpace_of_isDigit hc, ne_of_isDigit hc (by decide) rfl⟩
  | text s => exact ⟨_, _, rfl, by decide⟩
  | @list items h => cases items <;> exact ⟨_, _, rfl, by decide⟩
  | @object entries h => cases entries <;> exact ⟨_, _, rfl, by decide⟩

theorem nextItem_first {value : Json} (h : value.Restored) (level : Nat) (rest : List Char) :
    nextItem true (lineBreak level ++ (prettyChars level value ++ rest)) =
      .part (prettyChars level value ++ rest) := by
  obtain ⟨c, cs, htext, hspace, hclosing⟩ := h.exists_first level
  rw [htext, List.cons_append, nextItem, skipSpace_lineBreak level hspace]
  simp

theorem nextItem_later {value : Json} (h : value.Restored) (level : Nat) (rest : List Char) :
    nextItem false (',' :: (lineBreak level ++ (prettyChars level value ++ rest))) =
      .part (prettyChars level value ++ rest) := by
  obtain ⟨c, cs, htext, hspace, hclosing⟩ := h.exists_first level
  have hcomma : skipSpace (',' :: (lineBreak level ++ c :: (cs ++ rest))) =
      ',' :: (lineBreak level ++ c :: (cs ++ rest)) := rfl
  rw [htext, List.cons_append, nextItem, hcomma]
  simp [skipSpace_lineBreak level hspace, hclosing]

/-- What is said of a value: its text is read as the value, up to where it ends. -/
def ReadBack (value : Json) : Prop :=
  ∀ level bound rest, (prettyChars level value).length ≤ bound → Ends rest →
    readValue bound (prettyChars level value ++ rest) = (value.tree, some rest)

theorem readBack_bool (b : Bool) : ReadBack (.bool b) := by
  intro level bound rest hbound hrest
  cases bound with
  | zero => cases b <;> simp [prettyChars, boolText] at hbound
  | succ bound => cases b <;> rfl

theorem readBack_number {n : Number} (h : n.Restored) : ReadBack (.number n) := by
  intro level bound rest hbound hrest
  obtain ⟨c, cs, htext, hc⟩ := h.exists_first
  have hne {d : Char} (hsign : d ≠ '-') (hd : d.isDigit = false) : c ≠ d := ne_of_isDigit hc hsign hd
  have hread := h.read rest hrest
  rw [htext, List.cons_append] at hread
  cases bound with
  | zero => simp [prettyChars, htext] at hbound
  | succ bound =>
    rw [prettyChars, htext, List.cons_append, readValue, skipSpace_cons (isSpace_of_isDigit hc)]
    simp only [if_neg (hne (d := '"') (by decide) rfl), if_neg (hne (d := '[') (by decide) rfl),
      if_neg (hne (d := '\x7b') (by decide) rfl), if_neg (hne (d := 'n') (by decide) rfl),
      if_neg (hne (d := 't') (by decide) rfl), if_neg (hne (d := 'f') (by decide) rfl)]
    rw [if_pos (by simpa using hc), hread]
    rfl

theorem readBack_text (s : String) : ReadBack (.text s) := by
  intro level bound rest hbound hrest
  obtain ⟨cs, hcs, hread⟩ := readText_quote s rest
  cases bound with
  | zero => simp [prettyChars, quote] at hbound
  | succ bound =>
    rw [prettyChars, hcs, readValue, skipSpace_cons rfl]
    exact hread

theorem readItems_part {bound : Nat} {first : Bool} {cs text rest : List Char} {item : Tree}
    (hnext : nextItem first cs = .part text) (hitem : readValue bound text = (item, some rest)) :
    readItems (bound + 1) first cs =
      (item :: (readItems bound false rest).1, (readItems bound false rest).2) := by
  rw [readItems, hnext]
  simp only [hitem]

/-- The later items of an array are read up to its bracket. -/
theorem readItems_prettyItems {items : List Json} (hrestored : ∀ item ∈ items, item.Restored)
    (h : ∀ item ∈ items, ReadBack item) (level outer bound : Nat) (rest : List Char)
    (hbound : (prettyItems level items).length < bound) :
    readItems bound false (prettyItems level items ++ (lineBreak outer ++ ']' :: rest)) =
      (treeItems items, some rest) := by
  induction items generalizing bound with
  | nil =>
    obtain _ | bound := bound
    · cases hbound
    · rw [prettyItems, List.nil_append, readItems, nextItem_closed]
      rfl
  | cons item items ih =>
    obtain _ | bound := bound
    · cases hbound
    · simp only [prettyItems, List.length_append, List.length_cons] at hbound
      have hends := ends_prettyItems level items outer (']' :: rest)
      have hitem := h item List.mem_cons_self level bound _ (by omega) hends
      have hlater := ih (fun other hother => hrestored other (List.mem_cons_of_mem _ hother))
        (fun other hother => h other (List.mem_cons_of_mem _ hother)) bound (by omega)
      have hnext := nextItem_later (hrestored item List.mem_cons_self) level
        (prettyItems level items ++ (lineBreak outer ++ ']' :: rest))
      have hitems := readItems_part hnext hitem
      rw [hlater] at hitems
      simpa [prettyItems, treeItems] using hitems

theorem readBack_list {items : List Json} (hrestored : ∀ item ∈ items, item.Restored)
    (h : ∀ item ∈ items, ReadBack item) : ReadBack (.list items) := by
  intro level bound rest hbound hrest
  -- the value and its items take one of the bound each, and so do the brackets of its length
  obtain _ | _ | bound := bound
  · cases items <;> simp [prettyChars] at hbound
  · cases items <;> simp [prettyChars] at hbound
  cases items with
  | nil => rfl
  | cons item items =>
    simp only [prettyChars, lineBreak, List.length_append, List.length_cons, List.length_nil] at hbound
    have hends := ends_prettyItems (level + 1) items level (']' :: rest)
    have hitem := h item List.mem_cons_self (level + 1) bound _ (by omega) hends
    have hlater := readItems_prettyItems
      (fun other hother => hrestored other (List.mem_cons_of_mem _ hother))
      (fun other hother => h other (List.mem_cons_of_mem _ hother)) (level + 1) level bound rest (by omega)
    have hnext := nextItem_first (hrestored item List.mem_cons_self) (level + 1)
      (prettyItems (level + 1) items ++ (lineBreak level ++ ']' :: rest))
    have hitems := readItems_part hnext hitem
    rw [hlater] at hitems
    have htext : prettyChars level (.list (item :: items)) ++ rest = '[' :: (lineBreak (level + 1) ++
        (prettyChars (level + 1) item ++
          (prettyItems (level + 1) items ++ (lineBreak level ++ ']' :: rest)))) := by
      simp [prettyChars]
    rw [htext, readValue, skipSpace_cons rfl]
    simp [hitems, tree, treeItems]

theorem readEntries_part {bound : Nat} {first : Bool} {cs text later rest : List Char} {key : String}
    {value : Tree} (hnext : nextEntry first cs = .part text)
    (hkey : readText text = (.text key, some (':' :: ' ' :: later)))
    (hvalue : readValue bound later = (value, some rest)) :
    readEntries (bound + 1) first cs =
      ((.text key, value) :: (readEntries bound false rest).1, (readEntries bound false rest).2) := by
  have hcolon : colon (':' :: ' ' :: later) = .ok (' ' :: later) := rfl
  rw [readEntries, hnext]
  simp only [hkey, hcolon, readValue_space, hvalue]

/-- The later entries of an object are read up to its brace. -/
theorem readEntries_prettyEntries {entries : List (String × Json)}
    (h : ∀ entry ∈ entries, ReadBack entry.2) (level outer bound : Nat) (rest : List Char)
    (hbound : (prettyEntries level entries).length < bound) :
    readEntries bound false (prettyEntries level entries ++ (lineBreak outer ++ '\x7d' :: rest)) =
      (treeEntries entries, some rest) := by
  induction entries generalizing bound with
  | nil =>
    obtain _ | bound := bound
    · cases hbound
    · rw [prettyEntries, List.nil_append, readEntries, nextEntry_closed]
      rfl
  | cons entry entries ih =>
    obtain ⟨key, value⟩ := entry
    obtain _ | bound := bound
    · cases hbound
    · simp only [prettyEntries, List.length_append, List.length_cons] at hbound
      have hends := ends_prettyEntries level entries outer ('\x7d' :: rest)
      have hvalue := h (key, value) List.mem_cons_self level bound _ (by simp only; omega) hends
      have hlater := ih (fun other hother => h other (List.mem_cons_of_mem _ hother)) bound (by omega)
      obtain ⟨cs, hcs, hkey⟩ := readText_quote key (':' :: ' ' :: (prettyChars level value ++
        (prettyEntries level entries ++ (lineBreak outer ++ '\x7d' :: rest))))
      have hnext := nextEntry_later level cs
      rw [← hcs] at hnext
      have hentries := readEntries_part hnext hkey hvalue
      rw [hlater] at hentries
      simpa [prettyEntries, treeEntries] using hentries

theorem readBack_object {entries : List (String × Json)} (h : ∀ entry ∈ entries, ReadBack entry.2) :
    ReadBack (.object entries) := by
  intro level bound rest hbound hrest
  obtain _ | _ | bound := bound
  · rcases entries with _ | ⟨⟨key, value⟩, entries⟩ <;> simp [prettyChars] at hbound
  · rcases entries with _ | ⟨⟨key, value⟩, entries⟩ <;> simp [prettyChars] at hbound
  rcases entries with _ | ⟨⟨key, value⟩, entries⟩
  · rfl
  · simp only [prettyChars, lineBreak, List.length_append, List.length_cons, List.length_nil] at hbound
    have hends := ends_prettyEntries (level + 1) entries level ('\x7d' :: rest)
    have hvalue := h (key, value) List.mem_cons_self (level + 1) bound _ (by simp only; omega) hends
    have hlater := readEntries_prettyEntries
      (fun other hother => h other (List.mem_cons_of_mem _ hother)) (level + 1) level bound rest (by omega)
    obtain ⟨cs, hcs, hkey⟩ := readText_quote key (':' :: ' ' :: (prettyChars (level + 1) value ++
      (prettyEntries (level + 1) entries ++ (lineBreak level ++ '\x7d' :: rest))))
    have hnext := nextEntry_first (level + 1) cs
    rw [← hcs] at hnext
    have hentries := readEntries_part hnext hkey hvalue
    rw [hlater] at hentries
    have htext : prettyChars level (.object ((key, value) :: entries)) ++ rest =
        '\x7b' :: (lineBreak (level + 1) ++ (quote key ++ ':' :: ' ' :: (prettyChars (level + 1) value ++
          (prettyEntries (level + 1) entries ++ (lineBreak level ++ '\x7d' :: rest))))) := by
      simp [prettyChars]
    rw [htext, readValue, skipSpace_cons rfl]
    simp [hentries, tree, treeEntries]

/-- A value is read off the front of its text. -/
theorem Restored.readBack {value : Json} (h : value.Restored) : ReadBack value := by
  induction h with
  | null =>
    intro level bound rest hbound hrest
    cases bound with
    | zero => cases hbound
    | succ bound => rfl
  | bool b => exact readBack_bool b
  | number h => exact readBack_number h
  | text s => exact readBack_text s
  | list h ih => exact readBack_list h ih
  | object _ ih => exact readBack_object ih

/-- The text of a value is read back as the value, and nothing is left. -/
theorem read_pretty {value : Json} (h : value.Restored) :
    read value.pretty.toList = (value.tree, some []) := by
  rw [pretty, String.toList_ofList, read]
  have hread := h.readBack 0 (2 * (prettyChars 0 value).length + 2) [] (by omega) (.inl rfl)
  rwa [List.append_nil] at hread

/-! ### Texts tell values apart -/

theorem eq_of_treeItems_eq {items others : List Json}
    (h : ∀ item ∈ items, ∀ other, item.tree = other.tree → item = other)
    (heq : treeItems items = treeItems others) : items = others := by
  induction items generalizing others with
  | nil => cases others with
    | nil => rfl
    | cons other others => cases heq
  | cons item items ih => cases others with
    | nil => cases heq
    | cons other others =>
      rw [treeItems, treeItems, List.cons.injEq] at heq
      rw [h item List.mem_cons_self other heq.1,
        ih (fun later hlater => h later (List.mem_cons_of_mem _ hlater)) heq.2]

theorem eq_of_treeEntries_eq {entries others : List (String × Json)}
    (h : ∀ entry ∈ entries, ∀ other, entry.2.tree = other.tree → entry.2 = other)
    (heq : treeEntries entries = treeEntries others) : entries = others := by
  induction entries generalizing others with
  | nil => cases others with
    | nil => rfl
    | cons other others => cases heq
  | cons entry entries ih => cases others with
    | nil => cases heq
    | cons other others =>
      rw [treeEntries, treeEntries, List.cons.injEq, Prod.mk.injEq, Tree.text.injEq] at heq
      obtain ⟨⟨hkey, hvalue⟩, hlater⟩ := heq
      rw [Prod.ext hkey (h entry List.mem_cons_self other.2 hvalue),
        ih (fun later hlater => h later (List.mem_cons_of_mem _ hlater)) hlater]

theorem tree_injective : Function.Injective tree := by
  intro value
  induction value with
  | null => intro other heq; cases other <;> first | rfl | cases heq
  | bool | number | text => intro other heq; cases other <;> cases heq; rfl
  | list items ih =>
    intro other heq
    cases other with
    | list others =>
      rw [tree, tree, Tree.list.injEq] at heq
      rw [eq_of_treeItems_eq ih heq]
    | _ => cases heq
  | object entries ih =>
    intro other heq
    cases other with
    | object others =>
      rw [tree, tree, Tree.map.injEq] at heq
      rw [eq_of_treeEntries_eq ih heq]
    | _ => cases heq

theorem eq_of_pretty_eq {value other : Json} (h : value.Restored) (hother : other.Restored)
    (heq : value.pretty = other.pretty) : value = other := by
  have hread := read_pretty h
  rw [heq, read_pretty hother, Prod.mk.injEq] at hread
  exact (tree_injective hread.1).symm

end Json

end SchemaCompiler
