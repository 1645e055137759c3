import SchemaCompiler.Proofs.FileName
import SchemaCompiler.Proofs.Pieces

/-!
# Type names of titles

A title is raised in one pass over all of its characters, blanks included, and only then are the
characters picked that may stand in a name. A blank starts a word over and is never picked, so the name
is put together word by word, and nothing of a title counts but its words. Of a word nothing counts but
its letters and digits once its first character is raised: capitals may have letters where the
character has none (`ß`, `ı`), and what is first in a word may be dropped after it was raised.
-/

namespace SchemaCompiler.Name

open Text

/-! ### Words -/

/-- The words of a title: the longest runs of characters that are not blank. -/
def words (title : List Char) : List (List Char) :=
  (title.splitOnP isBlank).filter (!·.isEmpty)

/-- A word with its first character in capitals. -/
def capitalized : List Char → List Char
  | [] => []
  | c :: rest => uppercase c ++ rest

example : words "  spaced\tout ".toList = ["spaced".toList, "out".toList] := by decide +kernel
example : capitalized "ßeta".toList = "SSeta".toList := by decide +kernel

theorem words_append_of_isBlank {c : Char} (hc : isBlank c = true) (front back : List Char) :
    words (front ++ c :: back) = words front ++ words back := by
  rw [words, List.splitOnP_append_cons front back hc, List.filter_append, words, words]

theorem words_cons_of_isBlank {c : Char} (hc : isBlank c = true) (title : List Char) :
    words (c :: title) = words title := by
  simpa [words] using words_append_of_isBlank hc [] title

theorem words_of_ne_nil {word : List Char} (hne : word ≠ []) (h : ∀ c ∈ word, isBlank c = false) :
    words word = [word] := by
  rw [words, List.splitOnP_eq_singleton h]
  simp [hne]

/-- How a title is made of words: behind each word the title ends or there is a blank. -/
inductive Runs : List Char → List (List Char) → Prop where
  /-- The empty title has no words. -/
  | nil : Runs [] []
  /-- A blank between words or at an end of the title. -/
  | blank {c : Char} {title : List Char} {later : List (List Char)} (blank : isBlank c = true)
      (runs : Runs title later) : Runs (c :: title) later
  /-- A word that cannot be longer. -/
  | word {word title : List Char} {later : List (List Char)} (nonempty : word ≠ [])
      (plain : ∀ c ∈ word, isBlank c = false) (ends : ∀ c ∈ title.head?, isBlank c = true)
      (runs : Runs title later) : Runs (word ++ title) (word :: later)

theorem Runs.words_eq {title : List Char} {runs : List (List Char)} (h : Runs title runs) :
    words title = runs := by
  induction h with
  | nil => rfl
  | blank blank _ ih => rw [words_cons_of_isBlank blank, ih]
  | @word word title later nonempty plain ends _ ih =>
    cases title with
    | nil =>
      obtain rfl : [] = later := ih
      rw [List.append_nil, words_of_ne_nil nonempty plain]
    | cons c title =>
      have hc : isBlank c = true := ends c rfl
      rw [words_cons_of_isBlank hc] at ih
      rw [words_append_of_isBlank hc, words_of_ne_nil nonempty plain, ih, List.singleton_append]

theorem exists_runs (title : List Char) : ∃ runs, Runs title runs := by
  induction title using Pieces.piecewise_induction isBlank with
  | last word h =>
    obtain rfl | hne := eq_or_ne word []
    · exact ⟨[], .nil⟩
    · exact ⟨[word], by simpa using Runs.word hne h (by simp) .nil⟩
  | more word c back h hc ih =>
    obtain ⟨later, hlater⟩ := ih
    obtain rfl | hne := eq_or_ne word []
    · exact ⟨later, .blank hc hlater⟩
    · exact ⟨word :: later, .word hne h (by simpa using hc) (.blank hc hlater)⟩

/-- The words of a title are its longest runs, in order. -/
theorem runs_iff {title : List Char} {runs : List (List Char)} : Runs title runs ↔ words title = runs := by
  refine ⟨Runs.words_eq, fun h => ?_⟩
  obtain ⟨others, hothers⟩ := exists_runs title
  rwa [← h, hothers.words_eq]

/-! ### Raising -/

/-- A blank is kept and starts a word over. -/
theorem raiseWords_append_of_isBlank {c : Char} (hc : isBlank c = true) (atStart : Bool)
    (front back : List Char) :
    raiseWords atStart (front ++ c :: back) = raiseWords atStart front ++ c :: raiseWords true back := by
  induction front generalizing atStart with
  | nil => simp [raiseWords, hc]
  | cons d front ih => simp only [List.cons_append, raiseWords, ih, List.append_assoc]

/-- Behind its first character a word is kept as it is. -/
theorem raiseWords_false {rest : List Char} (h : ∀ c ∈ rest, isBlank c = false) :
    raiseWords false rest = rest := by
  induction rest with
  | nil => rfl
  | cons c rest ih =>
    rw [List.forall_mem_cons] at h
    rw [raiseWords, h.1, ih h.2]
    rfl

theorem raiseWords_word {word : List Char} (h : ∀ c ∈ word, isBlank c = false) :
    raiseWords true word = capitalized word := by
  cases word with
  | nil => rfl
  | cons c rest =>
    rw [List.forall_mem_cons] at h
    rw [raiseWords, h.1, raiseWords_false h.2]
    rfl

/-! ### Names -/

theorem toNat_lt_of_isTypeNameChar {c : Char} (h : isTypeNameChar c = true) : c.toNat < 128 := by
  have hchar : c.isAlphanum = true := h
  obtain halpha | hdigit : c.isAlpha = true ∨ c.isDigit = true := Bool.or_eq_true_iff.mp hchar
  · obtain hupper | hlower : c.isUpper = true ∨ c.isLower = true := Bool.or_eq_true_iff.mp halpha
    · have hcode : c.toNat ≤ 90 := UInt32.le_iff_toNat_le.mp (of_decide_eq_true hupper).2
      omega
    · have hcode : c.toNat ≤ 122 :=
        UInt32.le_iff_toNat_le.mp (of_decide_eq_true (Bool.and_eq_true_iff.mp hlower).2)
      omega
  · have hcode : c.toNat ≤ 57 :=
      UInt32.le_iff_toNat_le.mp (of_decide_eq_true (Bool.and_eq_true_iff.mp hdigit).2)
    omega

/-- No blank may stand in a name. -/
theorem isTypeNameChar_of_isBlank {c : Char} (hc : isBlank c = true) : isTypeNameChar c = false := by
  rw [← Bool.not_eq_true]
  intro hname
  have hall := forall_ascii (P := fun c => isBlank c = true → isTypeNameChar c = false)
    (by decide +kernel) (toNat_lt_of_isTypeNameChar hname) hc
  rw [hname] at hall
  cases hall

theorem typeNameOf_append_of_isBlank {c : Char} (hc : isBlank c = true) (front back : List Char) :
    typeNameOf (front ++ c :: back) = typeNameOf front ++ typeNameOf back := by
  rw [typeNameOf, raiseWords_append_of_isBlank hc, List.filter_append,
    List.filter_cons_of_neg (by simp [isTypeNameChar_of_isBlank hc]), typeNameOf, typeNameOf]

/-- The part of a name that a word gives. -/
def wordName (word : List Char) : List Char :=
  (capitalized word).filter isTypeNameChar

theorem typeNameOf_word {word : List Char} (h : ∀ c ∈ word, isBlank c = false) :
    typeNameOf word = wordName word := by
  rw [typeNameOf, raiseWords_word h, wordName]

/-- The name of a title is put together word by word. -/
theorem typeNameOf_eq_flatMap_words (title : List Char) :
    typeNameOf title = (words title).flatMap wordName := by
  rw [words, Pieces.flatMap_filter_nonempty rfl]
  exact Pieces.eq_flatMap_splitOnP (fun front c back hc => typeNameOf_append_of_isBlank hc front back)
    (fun word => typeNameOf_word) title

/-- **Type names.** The words of a title are its longest runs without blanks, and the name of the title is
put together from their letters and digits, each word with its first character in capitals. So a blank
takes the name apart into the names of what is before and behind it, and titles whose words are the same
once they are capitalized have the same name, whatever blanks are around the words. A name has ASCII
letters and digits only. -/
theorem typeName_word_by_word :
    (∀ title, Runs title.toList (words title.toList) ∧
      typeName title = .ofList ((words title.toList).flatMap fun word =>
        (capitalized word).filter Char.isAlphanum)) ∧
    (∀ front back c, isBlank c = true →
      typeName (front ++ .singleton c ++ back) = typeName front ++ typeName back) ∧
    (∀ title other, (words title.toList).map capitalized = (words other.toList).map capitalized →
      typeName title = typeName other) ∧
    ∀ title, IsPlain (typeName title) := by
  refine ⟨fun title => ⟨runs_iff.mpr rfl, ?_⟩, fun front back c hc => ?_, fun title other h => ?_,
    isPlain_typeName⟩
  · rw [typeName, typeNameOf_eq_flatMap_words]
    rfl
  · simp [typeName, typeNameOf_append_of_isBlank hc]
  · have hnames (words : List (List Char)) :
        words.flatMap wordName = (words.map capitalized).flatMap (·.filter isTypeNameChar) := by
      rw [List.flatMap_map]
      rfl
    rw [typeName, typeName, typeNameOf_eq_flatMap_words, typeNameOf_eq_flatMap_words, hnames, hnames, h]

/-- Two titles with the same words name the same type: `ı` has the capital `I`, and blanks of any width
are blanks. -/
theorem orderTitles_alike :
    typeName "ıtem  order-line (v2)\t" = typeName "Item\u3000Order-line (v2)" ∧
    typeName "Item\u3000Order-line (v2)" = typeName "Item" ++ typeName "Order-line (v2)" ∧
    typeName "Item\u3000Order-line (v2)" = "ItemOrderlinev2" := by
  obtain ⟨-, hover, hsame, -⟩ := typeName_word_by_word
  exact ⟨hsame _ _ (by decide +kernel), hover "Item" "Order-line (v2)" '\u3000' (by decide),
    by decide +kernel⟩

end SchemaCompiler.Name
