import SchemaCompiler.Proofs.Compilation
import SchemaCompiler.Proofs.Stem

/-!
# Singulars

The adder of a collection takes one element. Its parameter has the name of the property in the singular,
and its own name has the stem of the property in the singular. These are singulars of two texts: a name
keeps the separators at its end and its stem does not, and a raised letter of the stem may be a plural
letter where the name has none.

## What is proved

* `getLast?_uppercase` — the capitals that end in a plural letter are those of `s`, `S`, `ß` and `ſ`.
* `stemOf_singularOf_iff` — the stem of the singular is the singular of the stem exactly when the name
  and its stem are both plurals or neither is.
* `stray_iff` — where one of them alone is a plural, the name is a `Stray` one, which ends in one of four
  ways. Names in ASCII end in the first two of them only.
* `adder_matches_parameter_iff` — so in every run an adder is named for its parameter exactly if the name
  of the property is not stray.
-/

namespace SchemaCompiler.Name

open Text

/-! ### Plurals -/

/-- Whether a plural letter behind a text makes it a plural: the text has a last letter, and that is no
plural letter itself. -/
def takesPlural (stem : List Char) : Bool :=
  stem.getLast?.any (!isPluralLetter ·)

/-- Whether a text is a plural. -/
def isPlural (name : List Char) : Bool :=
  name.getLast?.any isPluralLetter && takesPlural name.dropLast

@[simp] theorem takesPlural_nil : takesPlural [] = false := rfl

@[simp] theorem takesPlural_concat (stem : List Char) (c : Char) :
    takesPlural (stem ++ [c]) = !isPluralLetter c := by
  simp [takesPlural]

@[simp] theorem isPlural_nil : isPlural [] = false := rfl

@[simp] theorem isPlural_concat (stem : List Char) (c : Char) :
    isPlural (stem ++ [c]) = (isPluralLetter c && takesPlural stem) := by
  simp [isPlural]

/-- The singular of a plural lacks its last letter; any other text is its own singular. -/
theorem singularOf_concat (stem : List Char) (c : Char) :
    singularOf (stem ++ [c]) = if isPlural (stem ++ [c]) then stem else stem ++ [c] := by
  rw [isPlural_concat]
  rcases stem.eq_nil_or_concat' with rfl | ⟨front, d, rfl⟩
  · simp [singularOf, singularReversed]
  · rw [takesPlural_concat, singularOf, List.reverse_concat, List.reverse_concat, singularReversed]
    split <;> simp

theorem singularOf_of_not_isPlural {name : List Char} (h : isPlural name = false) :
    singularOf name = name := by
  rcases name.eq_nil_or_concat' with rfl | ⟨stem, c, rfl⟩
  · rfl
  · rw [singularOf_concat, h, if_neg Bool.false_ne_true]

theorem isPlural_iff {name : List Char} : isPlural name = true ↔
    ∃ stem c, name = stem ++ [c] ∧ isPluralLetter c = true ∧ takesPlural stem = true := by
  constructor
  · intro h
    rcases name.eq_nil_or_concat' with rfl | ⟨stem, c, rfl⟩
    · cases h
    · rw [isPlural_concat, Bool.and_eq_true] at h
      exact ⟨stem, c, rfl, h⟩
  · rintro ⟨stem, c, rfl, hc, hstem⟩
    rw [isPlural_concat, hc, hstem, Bool.and_true]

/-! ### Plural letters and capitals -/

/-- Whether the capital of a character ends in the plural letter. -/
def raisesToPlural (c : Char) : Bool :=
  isPluralLetter c || c == 'ß' || c == 'ſ'

theorem isPluralLetter_iff {c : Char} : isPluralLetter c = true ↔ c = 's' ∨ c = 'S' := by
  simp [isPluralLetter]

theorem raisesToPlural_iff {c : Char} :
    raisesToPlural c = true ↔ isPluralLetter c = true ∨ c = 'ß' ∨ c = 'ſ' := by
  simp [raisesToPlural, or_assoc]

/-- The letters that are raised to plural letters without being one. -/
theorem isPluralLetter_ne_raisesToPlural_iff {c : Char} :
    isPluralLetter c ≠ raisesToPlural c ↔ c = 'ß' ∨ c = 'ſ' := by
  constructor
  · intro h
    by_contra hneither
    obtain ⟨hsharp, hlong⟩ := not_or.mp hneither
    apply h
    rw [raisesToPlural, beq_false_of_ne hsharp, beq_false_of_ne hlong, Bool.or_false, Bool.or_false]
  · rintro (rfl | rfl) <;> decide

/-- The separators are no plural letters. -/
theorem isPluralLetter_of_isSeparator {c : Char} (h : isSeparator c = true) :
    isPluralLetter c = false := by
  simp only [isSeparator, Bool.or_eq_true, beq_iff_eq] at h
  rcases h with rfl | rfl <;> rfl

theorem isSeparator_of_isPluralLetter {c : Char} (h : isPluralLetter c = true) :
    isSeparator c = false := by
  rcases isPluralLetter_iff.mp h with rfl | rfl <;> rfl

theorem uppercase_of_isPluralLetter {c : Char} (h : isPluralLetter c = true) : uppercase c = ['S'] := by
  rcases isPluralLetter_iff.mp h with rfl | rfl <;> rfl

/-- A code point stands for a plural letter only if it is that letter's own. -/
theorem code_of_isPluralLetter {code : Nat} (h : isPluralLetter (.ofNat code) = true) :
    code = 0x53 ∨ code = 0x73 := by
  rcases toNat_ofNat_or code with hcode | hnull
  · rcases isPluralLetter_iff.mp h with h | h
    · rw [h] at hcode
      exact .inr hcode.symm
    · rw [h] at hcode
      exact .inl hcode.symm
  · rw [hnull] at h
    cases h

/-- The shifts miss the plural letters, except for the long s. -/
theorem shifts_miss : ∀ run ∈ shifts, run.first = 0x17F ∧ run.last = 0x17F ∨
    0x73 < run.first + run.distance ∨ run.last + run.distance < 0x53 := by
  decide +kernel

/-- Of the characters whose capital is another single one, only the long s has a plural letter. -/
theorem code_of_shift {run : CaseRun} (hrun : run ∈ shifts) {code : Nat} (hcode : run.covers code = true)
    (h : isPluralLetter (.ofNat (Int.toNat (code + run.distance))) = true) : code = 0x17F := by
  simp only [CaseRun.covers, Bool.and_eq_true, decide_eq_true_eq] at hcode
  obtain ⟨⟨hfirst, hlast⟩, -⟩ := hcode
  have hcapital := code_of_isPluralLetter h
  have hmiss := shifts_miss run hrun
  omega

/-- Of the capitals of several characters, only that of the sharp s ends in a plural letter. -/
theorem expansions_end : ∀ entry ∈ expansions,
    (entry.2.map Char.ofNat).getLast?.map isPluralLetter = some (raisesToPlural (.ofNat entry.1)) := by
  decide +kernel

theorem isPluralLetter_toUpper_ascii : ∀ code < 128,
    isPluralLetter (Char.ofNat code).toUpper = raisesToPlural (.ofNat code) := by
  decide +kernel

/-- A character beyond ASCII that has neither of the two special capitals is no plural letter. -/
theorem raisesToPlural_of_wide {c : Char} (hwide : ¬c.toNat < 128)
    (hsharp : expansions.lookup c.toNat = none) (hlong : c ≠ 'ſ') : raisesToPlural c = false := by
  rw [← Bool.not_eq_true, raisesToPlural_iff, isPluralLetter_iff]
  rintro ((rfl | rfl) | rfl | rfl)
  · exact hwide (by decide)
  · exact hwide (by decide)
  · cases hsharp
  · exact hlong rfl

/-- The capitals that end in a plural letter are those of the plural letters, the sharp s and the
long s. -/
theorem getLast?_uppercase (c : Char) :
    (uppercase c).getLast?.map isPluralLetter = some (raisesToPlural c) := by
  by_cases hascii : c.toNat < 128
  · have hupper := isPluralLetter_toUpper_ascii c.toNat hascii
    rw [Char.ofNat_toNat] at hupper
    rw [uppercase_of_ascii hascii, List.getLast?_singleton, Option.map_some, hupper]
  by_cases hlong : c = 'ſ'
  · rw [hlong]
    rfl
  rw [uppercase, if_neg hascii]
  rcases uppercaseWide_cases c with
    ⟨codes, hcodes, hupper⟩ | ⟨hexpansion, run, hrun, hcovers, hupper⟩ | ⟨hexpansion, hupper⟩
  · have hend := expansions_end (c.toNat, codes) hcodes
    rwa [Char.ofNat_toNat, ← hupper] at hend
  · have hc := raisesToPlural_of_wide hascii hexpansion hlong
    have hcapital : isPluralLetter (.ofNat (Int.toNat (c.toNat + run.distance))) = false := by
      rw [← Bool.not_eq_true]
      intro h
      exact hlong (Char.toNat_inj.mp (code_of_shift hrun hcovers h))
    simp [hupper, hcapital, hc]
  · have hc := raisesToPlural_of_wide hascii hexpansion hlong
    have hown : isPluralLetter c = false := by
      simp only [raisesToPlural, Bool.or_eq_false_iff] at hc
      exact hc.1.1
    simp [hupper, hown, hc]

theorem takesPlural_append_uppercase (stem : List Char) (c : Char) :
    takesPlural (stem ++ uppercase c) = !raisesToPlural c := by
  obtain ⟨last, hlast, hplural⟩ := Option.map_eq_some_iff.mp (getLast?_uppercase c)
  rw [takesPlural, List.getLast?_append, hlast, Option.some_or, Option.any_some, hplural]

/-- The capital of the sharp s ends in two plural letters, so it is not what makes a plural. -/
theorem isPlural_append_uppercase (stem : List Char) (c : Char) :
    isPlural (stem ++ uppercase c) = ((isPluralLetter c || c == 'ſ') && takesPlural stem) := by
  cases hc : raisesToPlural c with
  | true =>
    rcases raisesToPlural_iff.mp hc with h | rfl | rfl
    · rw [uppercase_of_isPluralLetter h, isPlural_concat, h]
      rfl
    · change isPlural (stem ++ ['S', 'S']) = _
      rw [List.append_cons, isPlural_concat, takesPlural_concat]
      rfl
    · change isPlural (stem ++ ['S']) = _
      rw [isPlural_concat]
      rfl
  | false =>
    obtain ⟨last, hlast, hplural⟩ := Option.map_eq_some_iff.mp (getLast?_uppercase c)
    rw [hc] at hplural
    simp only [raisesToPlural, Bool.or_eq_false_iff] at hc
    rw [isPlural, List.getLast?_append, hlast, Option.some_or, Option.any_some, hplural, hc.1.1, hc.2]
    rfl

/-! ### The last two characters -/

theorem isPlural_pair (front : List Char) (d c : Char) :
    isPlural (front ++ [d, c]) = (isPluralLetter c && !isPluralLetter d) := by
  rw [List.append_cons, isPlural_concat, takesPlural_concat]

/-- A character behind a separator is raised, and what it makes a plural of is the stem before it. -/
theorem isPlural_stemOf_behind_separator {separator c : Char} (hseparator : isSeparator separator = true)
    (hc : isSeparator c = false) (front : List Char) :
    isPlural (stemOf (front ++ [separator, c])) =
      ((isPluralLetter c || c == 'ſ') && takesPlural (stemOf front)) := by
  rw [List.append_cons, stemOf_concat_of_raisesNext hc (by simpa), stemOf_concat_of_separator hseparator,
    isPlural_append_uppercase]

/-- A character within a segment is kept, and the one before it may be raised. -/
theorem isPlural_stemOf_within_segment {d c : Char} (hd : isSeparator d = false)
    (hc : isSeparator c = false) (front : List Char) :
    isPlural (stemOf (front ++ [d, c])) = (isPluralLetter c &&
      if raisesNext true front then !raisesToPlural d else !isPluralLetter d) := by
  rw [List.append_cons, stemOf_concat_of_not_raisesNext hc (by simpa), isPlural_concat]
  cases hfront : raisesNext true front with
  | true => rw [stemOf_concat_of_raisesNext hd hfront, takesPlural_append_uppercase, if_pos rfl]
  | false =>
    rw [stemOf_concat_of_not_raisesNext hd hfront, takesPlural_concat, if_neg Bool.false_ne_true]

/-! ### The singular of a stem -/

/-- A plural letter is one letter of the stem. -/
theorem exists_stemOf_concat {c : Char} (hc : isPluralLetter c = true) (front : List Char) :
    ∃ d, stemOf (front ++ [c]) = stemOf front ++ [d] := by
  have hkept := isSeparator_of_isPluralLetter hc
  cases hfront : raisesNext true front with
  | true => exact ⟨'S', by rw [stemOf_concat_of_raisesNext hkept hfront, uppercase_of_isPluralLetter hc]⟩
  | false => exact ⟨c, stemOf_concat_of_not_raisesNext hkept hfront⟩

/-- A plural is longer than its singular. -/
theorem singularOf_ne_of_isPlural {name : List Char} (h : isPlural name = true) :
    singularOf name ≠ name := by
  obtain ⟨stem, c, rfl, -, -⟩ := isPlural_iff.mp h
  rw [singularOf_concat, if_pos h]
  simp

/-- The two singulars agree if both texts lose their last letter or neither does. -/
theorem stemOf_singularOf_iff {name : List Char} :
    stemOf (singularOf name) = singularOf (stemOf name) ↔ isPlural name = isPlural (stemOf name) := by
  cases hname : isPlural name with
  | false =>
    rw [singularOf_of_not_isPlural hname]
    cases hstem : isPlural (stemOf name) with
    | false => simp [singularOf_of_not_isPlural hstem]
    | true => simp [(singularOf_ne_of_isPlural hstem).symm]
  | true =>
    obtain ⟨front, c, rfl, hc, -⟩ := isPlural_iff.mp hname
    obtain ⟨d, hd⟩ := exists_stemOf_concat hc front
    rw [singularOf_concat, if_pos hname, hd, singularOf_concat]
    cases isPlural (stemOf front ++ [d]) <;> simp

/-- The names that are plurals while their stems are not, or the other way round. -/
inductive Stray : List Char → Prop where
  /-- A separator after a plural stem: `items_`. -/
  | trailing {front : List Char} {c : Char} (separator : isSeparator c = true)
      (plural : isPlural (stemOf front) = true) : Stray (front ++ [c])
  /-- A segment that is one plural letter, after a stem that takes no plural: `_s`, `news_s`. -/
  | lone {front : List Char} {separator c : Char} (separates : isSeparator separator = true)
      (letter : isPluralLetter c = true) (stem : takesPlural (stemOf front) = false) :
      Stray (front ++ [separator, c])
  /-- A segment that is a long s, whose capital is the plural letter: `new_ſ`. -/
  | long {front : List Char} {separator : Char} (separates : isSeparator separator = true)
      (stem : takesPlural (stemOf front) = true) : Stray (front ++ [separator, 'ſ'])
  /-- A segment that is a plural letter behind a letter raised to one: `new_ßs`. -/
  | doubled {front : List Char} {first c : Char} (starts : raisesNext true front = true)
      (raised : first = 'ß' ∨ first = 'ſ') (letter : isPluralLetter c = true) :
      Stray (front ++ [first, c])

theorem isPlural_ne_of_stray {name : List Char} (h : Stray name) :
    isPlural name ≠ isPlural (stemOf name) := by
  cases h with
  | @trailing front c separator plural =>
    rw [stemOf_concat_of_separator separator, plural, isPlural_concat,
      isPluralLetter_of_isSeparator separator, Bool.false_and]
    exact Bool.false_ne_true
  | @lone front separator c separates letter stem =>
    rw [isPlural_pair, isPluralLetter_of_isSeparator separates, letter,
      isPlural_stemOf_behind_separator separates (isSeparator_of_isPluralLetter letter), stem,
      Bool.and_false]
    decide
  | @long front separator separates stem =>
    rw [isPlural_pair, isPlural_stemOf_behind_separator separates (by rfl), stem]
    exact Bool.false_ne_true
  | @doubled front first c starts raised letter =>
    have hfirst : isSeparator first = false := by
      rcases raised with rfl | rfl <;> rfl
    rw [isPlural_pair, isPlural_stemOf_within_segment hfirst (isSeparator_of_isPluralLetter letter),
      if_pos starts, letter]
    simpa using isPluralLetter_ne_raisesToPlural_iff.mpr raised

/-- The cases follow the last two characters: which of them separate, and which are raised. -/
theorem stray_of_isPlural_ne {name : List Char} (h : isPlural name ≠ isPlural (stemOf name)) :
    Stray name := by
  rcases name.eq_nil_or_concat' with rfl | ⟨front, c, rfl⟩
  · exact absurd rfl h
  cases hc : isSeparator c with
  | true =>
    rw [stemOf_concat_of_separator hc, isPlural_concat, isPluralLetter_of_isSeparator hc] at h
    exact .trailing hc (by simpa using h)
  | false =>
    rcases front.eq_nil_or_concat' with rfl | ⟨before, d, rfl⟩
    · rw [stemOf_concat_of_raisesNext hc rfl, isPlural_append_uppercase, isPlural_concat] at h
      simp at h
    rw [← List.append_cons, isPlural_pair] at h
    rw [← List.append_cons]
    cases hd : isSeparator d with
    | true =>
      rw [isPlural_stemOf_behind_separator hd hc, isPluralLetter_of_isSeparator hd] at h
      cases hbefore : takesPlural (stemOf before) with
      | true =>
        obtain ⟨rfl, -⟩ : c = 'ſ' ∧ isPluralLetter c = false := by simpa [hbefore] using h
        exact .long hd hbefore
      | false => exact .lone hd (by simpa [hbefore] using h) hbefore
    | false =>
      rw [isPlural_stemOf_within_segment hd hc] at h
      cases hbefore : raisesNext true before with
      | true =>
        rw [if_pos hbefore] at h
        have hletter : isPluralLetter c = true := by
          by_contra hletter
          rw [Bool.eq_false_iff.mpr hletter] at h
          exact h rfl
        refine .doubled hbefore (isPluralLetter_ne_raisesToPlural_iff.mp fun heq => ?_) hletter
        exact h (by rw [heq])
      | false =>
        rw [hbefore, if_neg Bool.false_ne_true] at h
        exact absurd rfl h

/-- The stray names are those where the name or its stem alone is a plural. -/
theorem stray_iff {name : List Char} : Stray name ↔ isPlural name ≠ isPlural (stemOf name) :=
  ⟨isPlural_ne_of_stray, stray_of_isPlural_ne⟩

instance (name : List Char) : Decidable (Stray name) :=
  decidable_of_iff _ stray_iff.symm

example : Stray ['s', '_', 's'] := by decide
example : ¬Stray ['_', 'a', '_', 'b', 's'] := by decide

theorem accessorStem_singular_iff {name : String} :
    accessorStem (singular name) = singular (accessorStem name) ↔ ¬Stray name.toList := by
  rw [accessorStem_eq, accessorStem_eq, singular, singular, String.toList_ofList, String.toList_ofList,
    String.ofList_inj, stemOf_singularOf_iff, stray_iff, not_not]

end SchemaCompiler.Name

namespace SchemaCompiler

open Name

theorem PropertyDescriptor.exists_adder_of_compile {types : TypeMap} {settings : Settings}
    {spec : PropertySpec} {required : Bool} {property : PropertyDescriptor}
    (h : compile types settings spec required = .ok property) (hcollection : property.isCollection) :
    ∃ adder, property.adder = some adder ∧
      adder.name = Name.adder (singular (accessorStem property.name)) ∧
      adder.parameter = singular property.name := by
  obtain ⟨type, default, -, -, rfl⟩ := compile_eq_ok_iff.mp h
  obtain ⟨element, helement⟩ := Option.isSome_iff_exists.mp hcollection
  exact ⟨_, congrArg (Option.map _) helement, rfl, rfl⟩

theorem Name.adder_inj {stem other : String} : Name.adder stem = Name.adder other ↔ stem = other := by
  simp [Name.adder]

/-- **Adders.** The stem of the singular of a name is the singular of its stem exactly if the name is not
stray. In every run the adder of a collection is named for the singular of the property's stem and its
parameter for the singular of the property's name, so the adder is named for its parameter exactly if
the name of the property is not stray. -/
theorem adder_matches_parameter_iff :
    (∀ name, accessorStem (singular name) = singular (accessorStem name) ↔ ¬Stray name.toList) ∧
    ∀ {settings definitions generation}, Generation.ofDefinitions settings definitions = .ok generation →
      ∀ model ∈ generation.models.values, ∀ property ∈ model.properties, property.isCollection →
        ∃ adder, property.adder = some adder ∧
          adder.name = Name.adder (singular (accessorStem property.name)) ∧
          adder.parameter = singular property.name ∧
          (adder.name = Name.adder (accessorStem adder.parameter) ↔ ¬Stray property.name.toList) := by
  refine ⟨fun name => accessorStem_singular_iff, ?_⟩
  intro settings definitions generation h model hmodel property hproperty hcollection
  obtain ⟨definition, -, spec, -, hspec⟩ :=
    Generation.exists_compile_of_mem_properties h hmodel hproperty
  obtain ⟨adder, hadder, hname, hparameter⟩ :=
    PropertyDescriptor.exists_adder_of_compile hspec hcollection
  refine ⟨adder, hadder, hname, hparameter, ?_⟩
  rw [hname, hparameter, Name.adder_inj, eq_comm]
  exact accessorStem_singular_iff

/-- A crate with two collections, one of which has a separator behind its name. -/
def crate : Definition where
  id := "crate"
  kind := .object
  properties :=
    [⟨"order_lines", .arrayOf (.primitive "string"), none⟩,
      ⟨"items_", .arrayOf (.primitive "string"), none⟩]

/-- The adder of the crate's lines is named for its parameter. -/
theorem crate_lines_added : ∃ generation model lines adder,
    Generation.ofDefinitions {} [crate] = .ok generation ∧ generation.models.get? "Crate" = some model ∧
    model.property? "order_lines" = some lines ∧ lines.adder = some adder ∧
    adder.parameter = "order_line" ∧ adder.name = "addOrderLine" ∧
    adder.name = Name.adder (accessorStem adder.parameter) ∧
    accessorStem (singular "order_lines") = singular (accessorStem "order_lines") := by
  obtain ⟨hsingular, hadder⟩ := adder_matches_parameter_iff
  obtain ⟨generation, model, lines, h, hget, hmodel, hlines, hmem, hname, hcollection⟩ :
      ∃ generation model lines, Generation.ofDefinitions {} [crate] = .ok generation ∧
        generation.models.get? "Crate" = some model ∧ model ∈ generation.models.values ∧
        model.property? "order_lines" = some lines ∧ lines ∈ model.properties ∧
        lines.name = "order_lines" ∧ lines.isCollection :=
    ⟨_, _, _, rfl, rfl, .head _, rfl, .head _, rfl, rfl⟩
  obtain ⟨adder, hsome, hadder, hparameter, hmatch⟩ := hadder h model hmodel lines hmem hcollection
  rw [hname] at hadder hparameter hmatch
  have hstray : ¬Stray "order_lines".toList := by decide +kernel
  exact ⟨generation, model, lines, adder, h, hget, hlines, hsome, hparameter.trans (by decide +kernel),
    hadder.trans (by decide +kernel), hmatch.mpr hstray, (hsingular _).mpr hstray⟩

/-- The adder of the crate's items is not named for its parameter. -/
theorem crate_items_misnamed : ∃ generation model items adder,
    Generation.ofDefinitions {} [crate] = .ok generation ∧ generation.models.get? "Crate" = some model ∧
    model.property? "items_" = some items ∧ items.isCollection ∧ items.adder = some adder ∧
    adder.parameter = "items_" ∧ adder.name = "addItem" ∧
    adder.name ≠ Name.adder (accessorStem adder.parameter) ∧
    accessorStem (singular "items_") ≠ singular (accessorStem "items_") :=
  ⟨_, _, _, _, rfl, rfl, rfl, rfl, rfl, by decide +kernel, by decide +kernel, by decide +kernel,
    by decide +kernel⟩

end SchemaCompiler
