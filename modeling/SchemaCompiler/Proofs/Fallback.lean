import SchemaCompiler.Proofs.Replacement
import SchemaCompiler.Proofs.Title
import SchemaCompiler.Text.Alphanumeric

/-!
# Which definitions have a name

A definition is named for its title, and for its identifier where there is nothing in the title to keep.
The fallback stops there: names consist of ASCII letters and digits, and an identifier in another script
may have nothing to keep either. The model of such a definition has the empty name, and its file is
called by its extension only.

What a text has to keep is its ASCII letters and digits, and what the first character of a word becomes
when it is raised. Capitals of ASCII letters come from a few other letters too (`ß`, `ı`, `ﬁ`), and so a
word may begin a name without a single ASCII character in it.

## What is proved

* `exists_mem_uppercase_iff` — the letters beyond ASCII whose capitals have ASCII letters are the
  seventeen of `raisedToAscii`.
* `typeName_ne_empty_iff` — a text gives a name exactly if it has an ASCII letter or digit or one of its
  words begins with such a letter.
* `definitions_named_iff` — so a definition has a name exactly if this holds of its identifier or of its
  title, and the models of a document all have names exactly if it holds of all of its objects.
-/

namespace SchemaCompiler.Name

open Text

/-! ### Capitals in ASCII -/

/-- The letters beyond ASCII that are raised to ASCII letters, alone or with something else. -/
def raisedToAscii : List Char :=
  ['ß', 'ŉ', 'ǰ', 'ẖ', 'ẗ', 'ẘ', 'ẙ', 'ẚ', 'ı', 'ſ', 'ﬀ', 'ﬁ', 'ﬂ', 'ﬃ', 'ﬄ', 'ﬅ', 'ﬆ']

theorem isTypeNameChar_ofNat_of_le {code : Nat} (h : 128 ≤ code) :
    isTypeNameChar (.ofNat code) = false := by
  rw [← Bool.not_eq_true]
  intro hname
  rcases toNat_ofNat_or code with hcode | hnull
  · have hlt := toNat_lt_of_isTypeNameChar hname
    omega
  · rw [hnull] at hname
    cases hname

/-- The capitals of several characters have an ASCII letter for these letters only. -/
theorem expansions_reach : ∀ entry ∈ expansions,
    (entry.2.map Char.ofNat).any isTypeNameChar = true → .ofNat entry.1 ∈ raisedToAscii := by
  decide +kernel

/-- The shifts lead to ASCII from single letters only. -/
theorem shifts_reach : ∀ run ∈ shifts, 128 ≤ run.first + run.distance ∨
    run.first = run.last ∧ .ofNat run.first ∈ raisedToAscii := by
  decide +kernel

theorem all_raisedToAscii : raisedToAscii.all (fun c => (uppercase c).any isTypeNameChar) = true := by
  decide +kernel

theorem exists_mem_uppercase_of_mem_raisedToAscii {c : Char} (h : c ∈ raisedToAscii) :
    ∃ d ∈ uppercase c, isTypeNameChar d = true :=
  List.any_eq_true.mp (List.all_eq_true.mp all_raisedToAscii c h)

/-- An ASCII letter is kept in either case. -/
theorem isTypeNameChar_toUpper {c : Char} (h : c.toNat < 128) :
    isTypeNameChar c.toUpper = isTypeNameChar c :=
  forall_ascii (P := fun c => isTypeNameChar c.toUpper = isTypeNameChar c) (by decide +kernel) h

/-- What a character beyond ASCII becomes has an ASCII letter only if it is one of these letters. -/
theorem mem_raisedToAscii_of_mem_uppercaseWide {c d : Char} (hc : ¬c.toNat < 128)
    (hd : d ∈ uppercaseWide c) (hname : isTypeNameChar d = true) : c ∈ raisedToAscii := by
  rcases uppercaseWide_cases c with
    ⟨codes, hcodes, hupper⟩ | ⟨-, run, hrun, hcovers, hupper⟩ | ⟨-, hupper⟩
  · rw [hupper] at hd
    have hany : (codes.map Char.ofNat).any isTypeNameChar = true := List.any_eq_true.mpr ⟨d, hd, hname⟩
    have hmem := expansions_reach (c.toNat, codes) hcodes hany
    rwa [Char.ofNat_toNat] at hmem
  · rw [hupper, List.mem_singleton] at hd
    subst hd
    simp only [CaseRun.covers, Bool.and_eq_true, decide_eq_true_eq] at hcovers
    obtain ⟨⟨hfirst, hlast⟩, -⟩ := hcovers
    -- either the whole run stays beyond ASCII, or it is one of the letters alone
    rcases shifts_reach run hrun with hfar | ⟨hsingle, hmem⟩
    · rw [isTypeNameChar_ofNat_of_le (by omega)] at hname
      cases hname
    · have hcode : run.first = c.toNat := by omega
      rwa [hcode, Char.ofNat_toNat] at hmem
  · rw [hupper, List.mem_singleton] at hd
    subst hd
    exact absurd (toNat_lt_of_isTypeNameChar hname) hc

/-- A raised character leaves something in a name exactly if it would without being raised or it is one of
the letters that are raised to ASCII letters. -/
theorem exists_mem_uppercase_iff (c : Char) :
    (∃ d ∈ uppercase c, isTypeNameChar d = true) ↔ isTypeNameChar c = true ∨ c ∈ raisedToAscii := by
  constructor
  · rintro ⟨d, hd, hname⟩
    by_cases hascii : c.toNat < 128
    · rw [uppercase_of_ascii hascii, List.mem_singleton] at hd
      rw [hd, isTypeNameChar_toUpper hascii] at hname
      exact .inl hname
    · rw [uppercase, if_neg hascii] at hd
      exact .inr (mem_raisedToAscii_of_mem_uppercaseWide hascii hd hname)
  · rintro (hname | hmem)
    · have hascii := toNat_lt_of_isTypeNameChar hname
      rw [uppercase_of_ascii hascii]
      exact ⟨_, .head _, (isTypeNameChar_toUpper hascii).trans hname⟩
    · exact exists_mem_uppercase_of_mem_raisedToAscii hmem

/-! ### Texts that give a name -/

/-- Whether a text has something to build a name from: an ASCII letter or digit, or a word that begins
with a letter that is raised to one. -/
def Usable (text : String) : Prop :=
  (∃ c ∈ text.toList, c.isAlphanum = true) ∨
    ∃ word ∈ words text.toList, ∃ c ∈ word.head?, c ∈ raisedToAscii

instance (text : String) : Decidable (Usable text) :=
  decidable_of_iff
    (text.toList.any Char.isAlphanum ||
      (words text.toList).any fun word => word.head?.any raisedToAscii.contains)
    (by simp [Usable, Option.any_eq_true])

/-- The words of a title hold its characters that are not blank. -/
theorem flatten_words (title : List Char) : (words title).flatten = title.filter (!isBlank ·) := by
  rw [← List.flatMap_id, words, Pieces.flatMap_filter_nonempty rfl]
  refine (Pieces.eq_flatMap_splitOnP (fun front c back hc => ?_) (fun word hword => ?_) title).symm
  · rw [List.filter_append, List.filter_cons_of_neg (by simp [hc])]
  · rw [List.filter_eq_self.mpr (by simpa using hword), id]

theorem exists_mem_words_iff {title : List Char} :
    (∃ word ∈ words title, ∃ c ∈ word, isTypeNameChar c = true) ↔
      ∃ c ∈ title, isTypeNameChar c = true := by
  constructor
  · rintro ⟨word, hword, c, hc, hname⟩
    have hmem : c ∈ (words title).flatten := List.mem_flatten.mpr ⟨word, hword, hc⟩
    rw [flatten_words] at hmem
    exact ⟨c, List.mem_of_mem_filter hmem, hname⟩
  · rintro ⟨c, hc, hname⟩
    have hblank : isBlank c = false := by
      rw [← Bool.not_eq_true]
      intro hblank
      rw [isTypeNameChar_of_isBlank hblank] at hname
      cases hname
    have hmem : c ∈ (words title).flatten := by
      rw [flatten_words]
      exact List.mem_filter.mpr ⟨hc, by rw [hblank]; rfl⟩
    obtain ⟨word, hword, hc⟩ := List.mem_flatten.mp hmem
    exact ⟨word, hword, c, hc, hname⟩

/-- A word gives a part of a name for what it has in ASCII, or for its first letter. -/
theorem wordName_ne_nil_iff {word : List Char} :
    wordName word ≠ [] ↔
      (∃ c ∈ word, isTypeNameChar c = true) ∨ ∃ c ∈ word.head?, c ∈ raisedToAscii := by
  have hkept : wordName word ≠ [] ↔ ∃ c ∈ capitalized word, isTypeNameChar c = true := by
    simp [wordName, List.filter_eq_nil_iff]
  rw [hkept]
  cases word with
  | nil => simp [capitalized]
  | cons c rest =>
    -- only the first character is raised, and it counts also as it was
    have hraised := exists_mem_uppercase_iff c
    simp only [capitalized, List.mem_append, or_and_right, exists_or, List.mem_cons, exists_eq_left,
      List.head?_cons, Option.mem_some_iff, exists_eq_left'] at hraised ⊢
    rw [hraised]
    exact or_right_comm

/-- A text gives a name exactly if it has something to build one from. -/
theorem typeName_ne_empty_iff {text : String} : typeName text ≠ "" ↔ Usable text := by
  have hwords : typeName text ≠ "" ↔ ∃ word ∈ words text.toList, wordName word ≠ [] := by
    simp [typeName, String.ofList_eq_empty_iff, typeNameOf_eq_flatMap_words]
  rw [hwords]
  simp only [wordName_ne_nil_iff, and_or_left, exists_or]
  exact or_congr_left exists_mem_words_iff

example : Usable "ﬁ-ﬁ §" := by decide
example : ¬Usable "-ß имя" := by decide

end SchemaCompiler.Name

namespace SchemaCompiler

/-! ### Definitions and their models -/

/-- A definition has a name exactly if its identifier or its title has something to build one from. -/
theorem Definition.typeName_ne_empty_iff (definition : Definition) :
    definition.typeName ≠ "" ↔
      Name.Usable definition.id ∨ ∃ title ∈ definition.title, Name.Usable title := by
  simp only [← Name.typeName_ne_empty_iff]
  rw [typeName, titleName?]
  cases definition.title with
  | none => simp
  | some title =>
    rw [Option.map_some, Option.filter_some]
    by_cases htitle : Name.typeName title = ""
    · simp [htitle]
    · simp [htitle]

/-- The models of a document have the names of its objects. -/
theorem Generation.exists_model_named_iff {settings : Settings} {document : Document}
    {generation : Generation} (h : ofDocument settings document = .ok generation) (name : String) :
    (∃ model ∈ generation.models.values, model.name = name) ↔
      ∃ definition ∈ document.toDefinitions, definition.isObject ∧ definition.typeName = name := by
  rw [← List.mem_map, names_of_values h, keys_of_document h, List.mem_eraseDups]
  simp [and_assoc]

/-- The file of a type with a plain name is called by its extension only if the name is empty. -/
theorem Publication.components_pathOf_eq_iff (p : Publication) {name : String}
    (h : Name.IsPlain name) :
    (p.pathOf name).components = p.target.components ++ [.name ("." ++ p.emitter.extension)] ↔
      name = "" ∧ Path.IsExtension p.emitter.extension := by
  have hempty : Name.IsPlain "" := by
    intro c hc
    simp at hc
  have hbare (hextension : Path.IsExtension p.emitter.extension) :
      (p.pathOf "").components = p.target.components ++ [.name ("." ++ p.emitter.extension)] := by
    have hnone := p.components_pathOf hextension hempty
    rwa [String.empty_append] at hnone
  constructor
  · intro heq
    have hmem : Component.name ("." ++ p.emitter.extension) ∈ (p.pathOf name).components := by
      rw [heq]
      exact List.mem_append_right _ (List.mem_singleton.mpr rfl)
    have hextension := Path.isExtension_of_isName (Path.isName_of_mem_components hmem)
    exact ⟨eq_of_components_pathOf h hempty (heq.trans (hbare hextension).symm), hextension⟩
  · rintro ⟨rfl, hextension⟩
    exact hbare hextension

/-- **Names of definitions.** The name of a definition has ASCII letters and digits only, and it is not
empty exactly if there is something to build a name from in its identifier or in its title. So the models
of a document all have names exactly if this holds of all its objects, and the file of a model is called
by its extension only if the model has no name; it then is, when the extension keeps within a name, as those
of descriptors and outlines do. -/
theorem definitions_named_iff :
    (∀ definition : Definition, Name.IsPlain definition.typeName ∧
      (definition.typeName ≠ "" ↔
        Name.Usable definition.id ∨ ∃ title ∈ definition.title, Name.Usable title)) ∧
    ∀ {settings : Settings} {document : Document} {generation : Generation},
      Generation.ofDocument settings document = .ok generation →
      ((∀ model ∈ generation.models.values, model.name ≠ "") ↔
        ∀ definition ∈ document.toDefinitions, definition.isObject →
          Name.Usable definition.id ∨ ∃ title ∈ definition.title, Name.Usable title) ∧
      ∀ (dir : Path) (emitter : Emitter), ∀ model ∈ generation.models.values,
        let p : Publication := ⟨dir, settings, emitter, generation.models.values⟩
        (p.pathOf model.name).components =
          (settings.directory dir).components ++ [.name ("." ++ emitter.extension)] ↔
        model.name = "" ∧ Path.IsExtension emitter.extension := by
  refine ⟨fun definition => ⟨definition.isPlain_typeName, definition.typeName_ne_empty_iff⟩, ?_⟩
  intro settings document generation h
  constructor
  · have hunnamed := not_congr (Generation.exists_model_named_iff h "")
    simp only [← Definition.typeName_ne_empty_iff]
    simpa using hunnamed
  · intro dir emitter model hmodel p
    exact p.components_pathOf_eq_iff (Generation.isPlain_of_mem_values h hmodel)

/-- A document of objects without a title to build a name from. One has an identifier that begins with a
ligature, the other one in another script with a digit. -/
def labels : Document where
  definitions := .ofList
    [("ﬁ-ﬁ", { type := some (.text "object"), title := some "§" }),
      ("имя 7", { type := some (.text "object") })]

/-- Their models have names, and so have the files of these. -/
theorem labels_named : ∃ generation, Generation.ofDocument {} labels = .ok generation ∧
    generation.models.values.map Model.name = ["FI", "7"] ∧
    ∀ model ∈ generation.models.values, model.name ≠ "" ∧
      (Publication.pathOf ⟨⟨"out"⟩, {}, .json, generation.models.values⟩ model.name).components ≠
        (Settings.directory {} ⟨"out"⟩).components ++ [.name ".json"] := by
  obtain ⟨-, hdocument⟩ := definitions_named_iff
  obtain ⟨generation, h, hnames⟩ : ∃ generation, Generation.ofDocument {} labels = .ok generation ∧
      generation.models.values.map Model.name = ["FI", "7"] := ⟨_, rfl, by decide +kernel⟩
  obtain ⟨hnamed, hfiles⟩ := hdocument h
  have hall := hnamed.mpr (by decide +kernel)
  refine ⟨generation, h, hnames, fun model hmodel => ⟨hall model hmodel, fun heq => ?_⟩⟩
  exact hall model hmodel ((hfiles ⟨"out"⟩ .json model hmodel).mp heq).1

/-- A document with one object, whose identifier has letters of another script only. -/
def foreign : Document where
  definitions := .ofList [("имя", { type := some (.text "object") })]

/-- The object has no name, although all of its identifier is letters with capitals of their own, and the
file of its model is called by its extension only. -/
theorem foreign_unnamed : ∃ definition ∈ foreign.toDefinitions, definition.isObject ∧
    definition.id = "имя" ∧
    (definition.id.toList.all fun c => Text.isAlphanumeric c && Text.uppercase c != [c]) = true ∧
    definition.typeName = "" ∧
    ∃ generation, Generation.ofDocument {} foreign = .ok generation ∧
      generation.models.values.map Model.name = [""] ∧
      (Publication.pathOf ⟨⟨"out"⟩, {}, .json, generation.models.values⟩ "").text =
        "out/Model/.json" :=
  ⟨_, .head _, rfl, rfl, by decide +kernel, by decide +kernel, _, rfl, by decide +kernel,
    by decide +kernel⟩

end SchemaCompiler
