import SchemaCompiler.Proofs.ReadBack

/-!
# Readers do not look past what they read

A value that is taken off the front of a text is the same with more text behind it, and what is left over
is what was left with the additional text. Only a number has no mark of its own at its end: when nothing
stands behind it, it may go on in the additional text.

## What is proved

* `skipText_append`, `decodeText_append` — once the closing quote is found, a text is the same, and so is
  its fault. This takes both readers, since a fault of a pair of escapes is found by looking ahead.
* `stable_read` — a number with something behind it is the same.
* `readValue_append` — so is every value. A part of a container always has something behind it, since its
  container has been closed. The bound of the reader may grow with the text.
* `read_append` — so is the value at the front of a whole text if it ends with a mark of its own.
-/

namespace SchemaCompiler

namespace Json

/-! ### Texts -/

section

variable {cs rest : List Char}

theorem skipText_quote (rest : List Char) : skipText ('"' :: rest) = .ok rest := by
  rw [skipText.eq_def]
  rfl

theorem skipText_plain {c : Char} (hquote : c ≠ '"') (hbackslash : c ≠ '\\')
    (hcontrol : ¬ c.toNat < 32) (rest : List Char) : skipText (c :: rest) = skipText rest := by
  rw [skipText.eq_def]
  simp only
  rw [if_neg hquote, if_neg hbackslash, if_neg hcontrol]

theorem skipText_letter {letter c : Char} (h : letterEscape? letter = some c) (rest : List Char) :
    skipText ('\\' :: letter :: rest) = skipText rest := by
  unfold letterEscape? at h
  split at h
  iterate 8 simp [skipText, letterEscape?]
  cases h

theorem decodeText_letter {letter c : Char} (h : letterEscape? letter = some c) (rest : List Char) :
    decodeText ('\\' :: letter :: rest) = prepend c (decodeText rest) := by
  unfold letterEscape? at h
  split at h
  iterate 8 simpa [decodeText, letterEscape?] using congrArg (prepend · _) (Option.some.inj h)
  cases h

/-- The first half of a pair is a fault unless an escape that could be the second half, or its beginning,
comes next. -/
theorem decodeText_unfinishedPair {a b c d : Char} {unit : Nat} (hunit : hexUnit? a b c d = some unit)
    (htrailing : ¬ isTrailing unit = true) (hleading : isLeading unit = true) (hnil : rest ≠ [])
    (hbackslash : rest ≠ ['\\']) (hescape : ∀ short, rest ≠ '\\' :: 'u' :: short) :
    decodeText ('\\' :: 'u' :: a :: b :: c :: d :: rest) = .error .unfinishedPair := by
  have hchars : ('\\' : Char) ≠ '"' := by decide
  simp only [decodeText, hunit, hchars, htrailing, hleading, ↓reduceIte]
  split <;> simp_all

/-- The closing quote is found where it was. -/
theorem skipText_append (h : skipText cs = .ok rest) (more : List Char) :
    skipText (cs ++ more) = .ok (rest ++ more) := by
  fun_induction skipText cs with
  | case2 =>
    cases h
    exact skipText_quote _
  | case5 a b c d rest' unit hunit _ ih => simpa [skipText, hunit] using ih h
  | case7 letter rest' _ _ c hc _ ih => exact (skipText_letter hc _).trans (ih h)
  | case10 c rest' hquote hbackslash hcontrol ih =>
    exact (skipText_plain hquote hbackslash hcontrol _).trans (ih h)
  | _ => cases h

theorem prepend_map (c : Char) (more : List Char)
    (result : Except SyntaxFault (List Char × List Char)) :
    prepend c (result.map fun read => (read.1, read.2 ++ more)) =
      (prepend c result).map fun read => (read.1, read.2 ++ more) := by
  cases result <;> rfl

/-- A text whose closing quote is found has the same content, or the same fault. -/
theorem decodeText_append (h : skipText cs = .ok rest) (more : List Char) :
    decodeText (cs ++ more) = (decodeText cs).map fun read => (read.1, read.2 ++ more) := by
  fun_induction decodeText cs with
  | case2 => exact decodeText_quote _
  | case5 => simp_all [decodeText, Except.map]
  | case7 => simp_all [decodeText, skipText, prepend_map]
  | case8 => simp_all [decodeText, Except.map]
  | case12 a b c d rest' unit hunit htrailing hleading hpair hshort hnil hbackslash =>
    -- what is behind the first half cannot begin an escape by growing at its end
    refine decodeText_unfinishedPair hunit htrailing hleading ?_ ?_ ?_
    all_goals
      rcases rest' with _ | ⟨e, _ | ⟨f, rest'⟩⟩ <;> simp_all
  | case13 => simp_all [decodeText, skipText, prepend_map]
  | case15 letter rest' _ _ c hc _ ih =>
    rw [skipText_letter hc] at h
    rw [List.cons_append, List.cons_append, decodeText_letter hc, ih h, prepend_map]
  | case17 c rest' hquote hbackslash hcontrol =>
    rw [skipText.eq_def] at h
    simp [hquote, hbackslash, hcontrol] at h
  | case18 c rest' hquote hbackslash hcontrol ih =>
    rw [skipText_plain hquote hbackslash hcontrol] at h
    rw [List.cons_append, decodeText_plain hquote hbackslash hcontrol, ih h, prepend_map]
  | _ => simp_all [skipText]

theorem exists_of_prepend_eq_ok {c : Char} {result : Except SyntaxFault (List Char × List Char)}
    {chars rest : List Char} (h : prepend c result = .ok (chars, rest)) :
    ∃ later, result = .ok (later, rest) := by
  cases result with
  | error fault => cases h
  | ok read =>
    cases h
    exact ⟨_, rfl⟩

theorem skipText_of_decodeText {chars : List Char} (h : decodeText cs = .ok (chars, rest)) :
    skipText cs = .ok rest := by
  fun_induction decodeText cs generalizing chars with
  | case2 =>
    cases h
    exact skipText_quote _
  | case7 a b c d unit hunit _ _ e f g k rest' trailing hpair _ _ ih =>
    obtain ⟨later, h⟩ := exists_of_prepend_eq_ok h
    simpa [skipText, hunit, hpair] using ih h
  | case13 a b c d rest' unit hunit _ _ _ ih =>
    obtain ⟨later, h⟩ := exists_of_prepend_eq_ok h
    simpa [skipText, hunit] using ih h
  | case15 letter rest' _ _ c hc _ ih =>
    obtain ⟨later, h⟩ := exists_of_prepend_eq_ok h
    exact (skipText_letter hc rest').trans (ih h)
  | case18 c rest' hquote hbackslash hcontrol ih =>
    obtain ⟨later, h⟩ := exists_of_prepend_eq_ok h
    exact (skipText_plain hquote hbackslash hcontrol rest').trans (ih h)
  | _ => cases h

theorem readText_append {tree : Tree} (h : readText cs = (tree, some rest))
    (more : List Char) : readText (cs ++ more) = (tree, some (rest ++ more)) := by
  rw [readText] at h ⊢
  split at h
  · next chars rest' hdecode =>
    cases h
    rw [decodeText_append (skipText_of_decodeText hdecode), hdecode]
    rfl
  · next wanted hdecode =>
    split at h
    · next rest' hskip =>
      cases h
      rw [decodeText_append hskip, hdecode, skipText_append hskip]
      rfl
    · cases h

end

end Json

/-! ### Numbers -/

namespace NumberText

section

variable {p : Char → Bool} {cs : List Char}

theorem dropWhile_append_of_ne_nil (h : cs.dropWhile p ≠ []) (more : List Char) :
    (cs ++ more).dropWhile p = cs.dropWhile p ++ more := by
  rw [List.dropWhile_append, if_neg (by simpa using h)]

theorem takeWhile_append_of_ne_nil (h : cs.dropWhile p ≠ []) (more : List Char) :
    (cs ++ more).takeWhile p = cs.takeWhile p := by
  have hsplit : (cs ++ more).takeWhile p ++ (cs ++ more).dropWhile p =
      cs.takeWhile p ++ (cs.dropWhile p ++ more) := by
    rw [List.takeWhile_append_dropWhile, ← List.append_assoc, List.takeWhile_append_dropWhile]
  rw [dropWhile_append_of_ne_nil h] at hsplit
  exact List.append_cancel_right hsplit

end

theorem readSign_append {cs : List Char} (h : cs ≠ []) (more : List Char) :
    Decimal.readSign (cs ++ more) = ((Decimal.readSign cs).1, (Decimal.readSign cs).2 ++ more) := by
  obtain ⟨c, cs, rfl⟩ := List.exists_cons_of_ne_nil h
  rw [List.cons_append]
  unfold Decimal.readSign
  split <;> simp_all

/-- Whether a reader that leaves something unread reads the same with more text behind. -/
def Stable {α : Type} (read : List Char → Except SyntaxFault (α × List Char)) : Prop :=
  ∀ {cs rest : List Char} {value : α}, read cs = .ok (value, rest) → rest ≠ [] →
    ∀ more, read (cs ++ more) = .ok (value, rest ++ more)

theorem Stable.map {α β : Type} {read : List Char → Except SyntaxFault (α × List Char)}
    (h : Stable read) (f : α → β) :
    Stable fun cs => (read cs).map fun (value, rest) => (f value, rest) := by
  intro cs rest value hread hrest more
  cases hcs : read cs with
  | error fault =>
    simp only [hcs] at hread
    cases hread
  | ok found =>
    simp only [hcs] at hread
    cases hread
    simp only [h hcs hrest more]
    rfl

theorem stable_readExponent : Stable readExponent := by
  intro cs rest exponent h hrest more
  cases cs with
  | nil =>
    cases h
    exact absurd rfl hrest
  | cons c cs =>
    rw [List.cons_append]
    simp only [readExponent] at h ⊢
    split at h
    · next hc =>
      rw [if_pos hc]
      split at h
      · cases h
      · next hdigits =>
        cases h
        have hcs : cs ≠ [] := by
          rintro rfl
          exact hrest rfl
        rw [readSign_append hcs, takeWhile_append_of_ne_nil hrest, dropWhile_append_of_ne_nil hrest,
          if_neg hdigits]
    · next hc =>
      rw [if_neg hc]
      cases h
      rfl

/-- A text that does not begin with a point has no fraction. -/
theorem readTail_cons {c : Char} (hc : c ≠ '.') (negative : Bool) (whole cs : List Char) :
    readTail negative whole (c :: cs) = (readExponent (c :: cs)).map fun (exponent, rest) =>
      (⟨negative, whole, [], exponent⟩, rest) := by
  simp [readTail, hc]

theorem stable_readTail (negative : Bool) (whole : List Char) : Stable (readTail negative whole) := by
  intro cs rest parts h hrest more
  cases cs with
  | nil =>
    cases h
    exact absurd rfl hrest
  | cons c cs =>
    by_cases hc : c = '.'
    · subst hc
      rw [List.cons_append]
      simp only [readTail] at h ⊢
      split at h
      · cases h
      · next hfraction =>
        have hcs : cs.dropWhile Char.isDigit ≠ [] := by
          intro hnil
          rw [hnil] at h
          cases h
          exact hrest rfl
        rw [takeWhile_append_of_ne_nil hcs, dropWhile_append_of_ne_nil hcs, if_neg hfraction]
        exact stable_readExponent.map (mk negative whole (cs.takeWhile Char.isDigit)) h hrest more
    · rw [readTail_cons hc] at h
      rw [List.cons_append, readTail_cons hc]
      exact stable_readExponent.map (mk negative whole []) h hrest more

theorem readUnsigned_cons {c : Char} (hc : c ≠ '0') (negative : Bool) (cs : List Char) :
    readUnsigned negative (c :: cs) =
      if ((c :: cs).takeWhile Char.isDigit).isEmpty then .error (missingDigit (c :: cs))
      else
        readTail negative ((c :: cs).takeWhile Char.isDigit) ((c :: cs).dropWhile Char.isDigit) := by
  simp [readUnsigned, hc]

theorem stable_readUnsigned (negative : Bool) : Stable (readUnsigned negative) := by
  intro cs rest parts h hrest more
  cases cs with
  | nil => cases h
  | cons c cs =>
    by_cases hc : c = '0'
    · subst hc
      cases cs with
      | nil =>
        cases h
        exact absurd rfl hrest
      | cons d cs =>
        simp only [List.cons_append, readUnsigned] at h ⊢
        split at h
        · cases h
        · next hd =>
          rw [if_neg hd]
          exact stable_readTail negative ['0'] h hrest more
    · rw [readUnsigned_cons hc] at h
      rw [List.cons_append, readUnsigned_cons hc]
      split at h
      · cases h
      · next hwhole =>
        have hcs : (c :: cs).dropWhile Char.isDigit ≠ [] := by
          intro hnil
          rw [hnil] at h
          cases h
          exact hrest rfl
        rw [← List.cons_append, takeWhile_append_of_ne_nil hcs, dropWhile_append_of_ne_nil hcs,
          if_neg hwhole]
        exact stable_readTail negative _ h hrest more

theorem read_cons {c : Char} (hc : c ≠ '-') (cs : List Char) :
    read (c :: cs) = readUnsigned false (c :: cs) := by
  simp [read, hc]

theorem stable_read : Stable read := by
  intro cs rest parts h hrest more
  cases cs with
  | nil => cases h
  | cons c cs =>
    by_cases hc : c = '-'
    · subst hc
      exact stable_readUnsigned true h hrest more
    · rw [read_cons hc] at h
      rw [List.cons_append, read_cons hc]
      exact stable_readUnsigned false h hrest more

end NumberText

/-- Whether the text of a value ends with a mark of its own. -/
def Tree.Closes (tree : Tree) : Prop :=
  match tree.untagged with
  | .list _ | .map _ | .text _ => True
  | _ => False

namespace Json

/-! ### What stands between parts -/

section

variable {cs rest : List Char}

theorem skipSpace_append (h : skipSpace cs ≠ []) (more : List Char) :
    skipSpace (cs ++ more) = skipSpace cs ++ more :=
  NumberText.dropWhile_append_of_ne_nil h more

/-- What stands at a place, with more text behind. -/
def Next.append (more : List Char) : Next → Next
  | part rest => part (rest ++ more)
  | closed rest => closed (rest ++ more)
  | broken place => broken place

theorem nextItem_append {first : Bool} (h : ∀ place, nextItem first cs ≠ .broken place)
    (more : List Char) : nextItem first (cs ++ more) = (nextItem first cs).append more := by
  unfold nextItem at h ⊢
  cases hcs : skipSpace cs with
  | nil => simp [hcs] at h
  | cons c rest =>
    rw [hcs] at h
    rw [skipSpace_append (by simp [hcs]), hcs, List.cons_append]
    by_cases hc : c = ']'
    · subst hc
      rfl
    · cases first with
      | true => simp [Next.append]
      | false =>
        by_cases hcomma : c = ','
        · subst hcomma
          cases hrest : skipSpace rest with
          | nil => simp [hrest] at h
          | cons d rest' =>
            by_cases hd : d = ']'
            · simp [hd, hrest] at h
            · simp [skipSpace_append, hrest, hd, Next.append]
        · simp [hcomma] at h

theorem nextEntry_append {first : Bool} (h : ∀ place, nextEntry first cs ≠ .broken place)
    (more : List Char) : nextEntry first (cs ++ more) = (nextEntry first cs).append more := by
  unfold nextEntry at h ⊢
  cases hcs : skipSpace cs with
  | nil => simp [hcs] at h
  | cons c rest =>
    rw [hcs] at h
    rw [skipSpace_append (by simp [hcs]), hcs, List.cons_append]
    by_cases hc : c = '\x7d'
    · subst hc
      rfl
    · cases first with
      | true =>
        by_cases hquote : c = '"'
        · subst hquote
          rfl
        · simp [hquote] at h
      | false =>
        by_cases hcomma : c = ','
        · subst hcomma
          cases hrest : skipSpace rest with
          | nil => simp [hrest] at h
          | cons d rest' =>
            by_cases hd : d = '"'
            · simp [skipSpace_append, hrest, hd, Next.append]
            · by_cases hd' : d = '\x7d'
              · simp [hd', hrest] at h
              · simp [hd, hd', hrest] at h
        · simp [hcomma] at h

theorem colon_append (h : colon cs = .ok rest) (more : List Char) :
    colon (cs ++ more) = .ok (rest ++ more) := by
  unfold colon at h ⊢
  split at h
  · cases h
  · next hcs =>
    cases h
    rw [skipSpace_append (by simp [hcs]), hcs, List.cons_append]
    rfl
  · cases h

/-! ### Values -/

theorem readNumber_append {tree : Tree} (h : readNumber cs = (tree, some rest)) (hrest : rest ≠ [])
    (more : List Char) : readNumber (cs ++ more) = (tree, some (rest ++ more)) := by
  unfold readNumber at h ⊢
  split at h
  · cases h
  · next parts behind hread =>
    split at h
    · next value hvalue =>
      cases h
      rw [NumberText.stable_read hread hrest more]
      simp only [hvalue]
    · next hvalue =>
      cases h
      rw [NumberText.stable_read hread hrest more]
      simp only [hvalue]

-- without anything behind it a number may go on
example : readNumber ['1'] = (.number (.integer 1), some []) := rfl
example : readNumber (['1'] ++ ['2']) = (.number (.integer 12), some []) := rfl

theorem readKeyword_append {value tree : Tree} {letters : List Char}
    (h : readKeyword value letters cs = (tree, some rest)) (more : List Char) :
    readKeyword value letters (cs ++ more) = (tree, some (rest ++ more)) := by
  fun_induction readKeyword value letters cs with
  | case1 =>
    cases h
    simp [readKeyword]
  | case3 c letters rest' ih =>
    simpa [readKeyword] using ih h
  | _ => cases h

theorem ne_nil_of_readItems {bound : Nat} {items : List Tree}
    (h : readItems bound false cs = (items, some rest)) : cs ≠ [] := by
  rintro rfl
  cases bound <;> cases h

theorem ne_nil_of_readEntries {bound : Nat} {entries : List (Tree × Tree)}
    (h : readEntries bound false cs = (entries, some rest)) : cs ≠ [] := by
  rintro rfl
  cases bound <;> cases h

theorem not_closes_of_readNumber {tree : Tree} (h : readNumber cs = (tree, some rest)) :
    ¬ tree.Closes := by
  unfold readNumber at h
  split at h
  · cases h
  · split at h <;>
    · cases h
      exact id

theorem exists_of_pair_eq {α β : Type} {read : α × Option (List Char)} {f : α → β} {x : β}
    {rest? : Option (List Char)} (h : (f read.1, read.2) = (x, rest?)) :
    ∃ y, read = (y, rest?) ∧ f y = x := by
  cases h
  exact ⟨read.1, rfl, rfl⟩

mutual

/-- A value is read from a longer text as it was, also with a greater bound. -/
theorem readValue_append {bound bound' : Nat} {cs rest : List Char} {tree : Tree}
    (hbound : bound ≤ bound') (h : readValue bound cs = (tree, some rest))
    (hrest : rest = [] → tree.Closes) (more : List Char) :
    readValue bound' (cs ++ more) = (tree, some (rest ++ more)) := by
  cases bound with
  | zero => cases h
  | succ bound =>
    obtain ⟨bound', rfl⟩ := Nat.exists_eq_add_of_lt hbound
    rw [readValue] at h ⊢
    cases hcs : skipSpace cs with
    | nil =>
      rw [hcs] at h
      cases h
    | cons c cs' =>
      rw [hcs] at h
      rw [skipSpace_append (by simp [hcs]), hcs, List.cons_append]
      simp only at h ⊢
      split_ifs at h ⊢
      · exact readText_append h more
      · obtain ⟨items, hitems, rfl⟩ := exists_of_pair_eq h
        rw [readItems_append (by omega) hitems more]
      · obtain ⟨entries, hentries, rfl⟩ := exists_of_pair_eq h
        rw [readEntries_append (by omega) hentries more]
      · exact readKeyword_append h more
      · exact readKeyword_append h more
      · exact readKeyword_append h more
      · refine readNumber_append h (fun hnil => ?_) more
        exact not_closes_of_readNumber h (hrest hnil)
      · cases h

theorem readItems_append {bound bound' : Nat} {cs rest : List Char} {first : Bool} {items : List Tree}
    (hbound : bound ≤ bound') (h : readItems bound first cs = (items, some rest)) (more : List Char) :
    readItems bound' first (cs ++ more) = (items, some (rest ++ more)) := by
  cases bound with
  | zero => cases h
  | succ bound =>
    obtain ⟨bound', rfl⟩ := Nat.exists_eq_add_of_lt hbound
    rw [readItems] at h ⊢
    cases hnext : nextItem first cs with
    | broken place =>
      rw [hnext] at h
      cases h
    | closed behind =>
      rw [nextItem_append (by simp [hnext]), hnext]
      rw [hnext] at h
      cases h
      rfl
    | part behind =>
      rw [nextItem_append (by simp [hnext]), hnext]
      rw [hnext] at h
      simp only [Next.append] at h ⊢
      cases hitem : readValue bound behind with
      | mk item behind? =>
        rw [hitem] at h
        cases behind? with
        | none => cases h
        | some behind' =>
          obtain ⟨later, hlater, rfl⟩ := exists_of_pair_eq h
          -- the array goes on behind the item, so even a number ends there
          have hne := ne_nil_of_readItems hlater
          rw [readValue_append (by omega) hitem (fun hnil => absurd hnil hne) more]
          simp only
          rw [readItems_append (by omega) hlater more]

theorem readEntries_append {bound bound' : Nat} {cs rest : List Char} {first : Bool}
    {entries : List (Tree × Tree)} (hbound : bound ≤ bound')
    (h : readEntries bound first cs = (entries, some rest)) (more : List Char) :
    readEntries bound' first (cs ++ more) = (entries, some (rest ++ more)) := by
  cases bound with
  | zero => cases h
  | succ bound =>
    obtain ⟨bound', rfl⟩ := Nat.exists_eq_add_of_lt hbound
    rw [readEntries] at h ⊢
    cases hnext : nextEntry first cs with
    | broken place =>
      rw [hnext] at h
      cases h
    | closed behind =>
      rw [nextEntry_append (by simp [hnext]), hnext]
      rw [hnext] at h
      cases h
      rfl
    | part behind =>
      rw [nextEntry_append (by simp [hnext]), hnext]
      rw [hnext] at h
      simp only [Next.append] at h ⊢
      split at h
      · cases h
      · next key behindKey hkey =>
        rw [readText_append hkey]
        simp only
        split at h
        · cases h
        · next behindColon hcolon =>
          rw [colon_append hcolon]
          simp only
          split at h
          · cases h
          · next value behindValue hvalue =>
            obtain ⟨later, hlater, rfl⟩ := exists_of_pair_eq h
            have hne := ne_nil_of_readEntries hlater
            rw [readValue_append (by omega) hvalue (fun hnil => absurd hnil hne) more]
            simp only
            rw [readEntries_append (by omega) hlater more]

end

/-- **No reader looks ahead.** -/
theorem read_append {tree : Tree} (h : read cs = (tree, some rest)) (hrest : rest = [] → tree.Closes)
    (more : List Char) : read (cs ++ more) = (tree, some (rest ++ more)) := by
  refine readValue_append ?_ h hrest more
  rw [List.length_append]
  omega

end

end Json

end SchemaCompiler
