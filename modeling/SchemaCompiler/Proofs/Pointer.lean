import Mathlib.Data.List.TakeWhile
import SchemaCompiler.Proofs.TypeMap

/-!
# Pointers to definitions

The identifier that a reference names is computed by replacing `~1` by a slash everywhere in the last
segment and then `~0` by a tilde. RFC 6901 wants a segment to be read once from left to right. The two
agree on every text (`undo_undo_eq_decode`): the first pass only takes tildes away, what it puts there
is a slash, and a slash neither begins nor ends an escape of the second pass. In the other order `~01`
would be read as a slash.

A definition can be referred to whatever its identifier is, by the pointer that escapes it
(`definitions_reachable_by_pointer`).
-/

namespace SchemaCompiler

namespace Reference

/-- A segment of a pointer, read once from left to right: `~1` is a slash, `~0` is a tilde, and every
other tilde is kept. -/
def decode : List Char → List Char
  | [] => []
  | '~' :: '1' :: rest => '/' :: decode rest
  | '~' :: '0' :: rest => '~' :: decode rest
  | c :: rest => c :: decode rest

/-- A character as it is written in a segment of a pointer. -/
def escapeChar (c : Char) : List Char :=
  if c = '~' then ['~', '0'] else if c = '/' then ['~', '1'] else [c]

/-- A text as it is written in a segment of a pointer. -/
def escape (text : String) : String :=
  .ofList (text.toList.flatMap escapeChar)

/-! ### Two passes and one -/

section Undo

variable (digit replacement : Char) (rest : List Char)

theorem undo_escape : undo digit replacement ('~' :: digit :: rest) =
    replacement :: undo digit replacement rest := by
  rw [undo, if_pos rfl]

theorem undo_of_ne_tilde {c : Char} (h : c ≠ '~') :
    undo digit replacement (c :: rest) = c :: undo digit replacement rest := by
  rw [undo]
  rintro d later rfl
  exact absurd rfl h

theorem undo_tilde_of_ne {c : Char} (h : c ≠ digit) : undo digit replacement ('~' :: c :: rest) =
    '~' :: undo digit replacement (c :: rest) := by
  rw [undo, if_neg h]

/-- What a pass begins with is what it read first, or the replacement. -/
theorem exists_undo_cons (c : Char) : ∃ first later,
    undo digit replacement (c :: rest) = first :: later ∧ (first = c ∨ first = replacement) := by
  by_cases hc : c = '~'
  · subst hc
    cases rest with
    | nil => exact ⟨'~', [], rfl, .inl rfl⟩
    | cons d rest =>
      by_cases hd : d = digit
      · subst hd
        exact ⟨replacement, _, undo_escape d replacement rest, .inr rfl⟩
      · exact ⟨'~', _, undo_tilde_of_ne digit replacement rest hd, .inl rfl⟩
  · exact ⟨c, _, undo_of_ne_tilde digit replacement rest hc, .inl rfl⟩

end Undo

/-- Undoing the escape of the slash and then that of the tilde reads a segment from left to right. -/
theorem undo_undo_eq_decode (segment : List Char) :
    undo '0' '~' (undo '1' '/' segment) = decode segment := by
  fun_induction decode segment with
  | case1 => rfl
  | case2 rest ih => rw [undo_escape, undo_of_ne_tilde _ _ _ (by decide), ih]
  | case3 rest ih =>
    have hfirst : undo '1' '/' ('~' :: '0' :: rest) = '~' :: '0' :: undo '1' '/' rest := by
      rw [undo_tilde_of_ne _ _ _ (by decide), undo_of_ne_tilde _ _ _ (by decide)]
    rw [hfirst, undo_escape, ih]
  | case4 c rest hslash htilde ih =>
    by_cases hc : c = '~'
    · subst hc
      cases rest with
      | nil => rfl
      | cons d rest =>
        have hd : d ≠ '1' := fun h => hslash rest rfl (by rw [h])
        have hd' : d ≠ '0' := fun h => htilde rest rfl (by rw [h])
        -- the first pass leaves behind the tilde what was there, or a slash
        obtain ⟨first, later, hpass, hfirst⟩ := exists_undo_cons '1' '/' rest d
        have hkept : first ≠ '0' := by
          rcases hfirst with rfl | rfl
          · exact hd'
          · decide
        rw [undo_tilde_of_ne _ _ _ hd, ← ih, hpass, undo_tilde_of_ne _ _ _ hkept]
    · rw [undo_of_ne_tilde _ _ _ hc, undo_of_ne_tilde _ _ _ hc, ih]

/-! ### Segments -/

theorem lastSegment_of_notMem {segment : List Char} (h : '/' ∉ segment) :
    lastSegment segment = segment := by
  rw [lastSegment, List.takeWhile_eq_self_iff.mpr, List.reverse_reverse]
  intro c hc
  simpa using fun e : c = '/' => h (e ▸ List.mem_reverse.mp hc)

/-- What follows a slash and has none in it is the last segment. -/
theorem lastSegment_append_slash (front : List Char) {segment : List Char} (h : '/' ∉ segment) :
    lastSegment (front ++ '/' :: segment) = segment := by
  have hall : ∀ c ∈ segment.reverse, (c != '/') = true := by
    intro c hc
    simpa using fun e : c = '/' => h (e ▸ List.mem_reverse.mp hc)
  rw [lastSegment, List.reverse_append, List.reverse_cons, List.append_assoc, List.singleton_append,
    List.takeWhile_append_of_pos hall, List.takeWhile_cons_of_neg (by simp), List.append_nil,
    List.reverse_reverse]

/-- A text without a slash, or what follows its last slash. -/
theorem exists_last_segment (reference : List Char) : ∃ segment, '/' ∉ segment ∧
    (reference = segment ∨ ∃ front, reference = front ++ '/' :: segment) := by
  induction reference with
  | nil => exact ⟨[], by simp, .inl rfl⟩
  | cons c rest ih =>
    obtain ⟨segment, habsent, rfl | ⟨front, rfl⟩⟩ := ih
    · by_cases hc : c = '/'
      · subst hc
        exact ⟨rest, habsent, .inr ⟨[], rfl⟩⟩
      · refine ⟨c :: rest, ?_, .inl rfl⟩
        simp [habsent, Ne.symm hc]
    · exact ⟨segment, habsent, .inr ⟨c :: front, rfl⟩⟩

/-! ### Escaping -/

theorem decode_escapeChar (c : Char) (rest : List Char) :
    decode (escapeChar c ++ rest) = c :: decode rest := by
  unfold escapeChar
  split_ifs with htilde hslash
  · subst htilde
    rfl
  · subst hslash
    rfl
  · rw [List.singleton_append, decode]
    · rintro later rfl
      exact absurd rfl htilde
    · rintro later rfl
      exact absurd rfl htilde

theorem decode_flatMap_escapeChar (text : List Char) : decode (text.flatMap escapeChar) = text := by
  induction text with
  | nil => rfl
  | cons c text ih => rw [List.flatMap_cons, decode_escapeChar, ih]

/-- An escaped text is a single segment. -/
theorem slash_notMem_flatMap_escapeChar (text : List Char) : '/' ∉ text.flatMap escapeChar := by
  intro h
  obtain ⟨c, -, hc⟩ := List.mem_flatMap.mp h
  unfold escapeChar at hc
  split_ifs at hc with htilde hslash
  · simp at hc
  · simp at hc
  · exact hslash (List.mem_singleton.mp hc).symm

/-- A pointer names the identifier that it escapes. -/
theorem target_pointer (front id : String) : target (front ++ "/" ++ escape id) = id := by
  have hsegment := lastSegment_append_slash front.toList (slash_notMem_flatMap_escapeChar id.toList)
  have hchars : (front ++ "/" ++ escape id).toList = front.toList ++ '/' :: id.toList.flatMap escapeChar := by
    simp [escape]
  rw [target, targetOf, hchars, hsegment, undo_undo_eq_decode, decode_flatMap_escapeChar,
    String.ofList_toList]

end Reference

/-- **Pointers.** The identifier that a reference names is what follows its last slash, or all of it when
there is none, read once from left to right. So an identifier is named by every pointer that ends in it,
escaped, and where a definition has the identifier such a pointer is resolved to what the identifier
stands for: the last definition that has it. -/
theorem definitions_reachable_by_pointer :
    (∀ reference : String, ∃ segment, '/' ∉ segment ∧
      (reference.toList = segment ∨ ∃ front, reference.toList = front ++ '/' :: segment) ∧
      Reference.target reference = .ofList (Reference.decode segment)) ∧
    (∀ front id : String, Reference.target (front ++ "/" ++ Reference.escape id) = id) ∧
    ∀ (definitions : List Definition) (front : String), ∀ definition ∈ definitions,
      ∃ earlier last later, definitions = earlier ++ last :: later ∧ last.id = definition.id ∧
        (∀ d ∈ later, d.id ≠ definition.id) ∧
        (TypeMap.ofDefinitions definitions).get? definition.id = some last.resolved ∧
        (TypeMap.ofDefinitions definitions).resolve
          (front ++ "/" ++ Reference.escape definition.id) = .ok last.resolved := by
  refine ⟨fun reference => ?_, Reference.target_pointer, fun definitions front definition hmem => ?_⟩
  · obtain ⟨segment, habsent, hsplit⟩ := Reference.exists_last_segment reference.toList
    refine ⟨segment, habsent, hsplit, ?_⟩
    have hlast : Reference.lastSegment reference.toList = segment := by
      rcases hsplit with hall | ⟨front, hfront⟩
      · rw [hall, Reference.lastSegment_of_notMem habsent]
      · rw [hfront, Reference.lastSegment_append_slash front habsent]
    rw [Reference.target, Reference.targetOf, hlast, Reference.undo_undo_eq_decode]
  · cases hlast : Definition.lastOf? definitions definition.id with
    | none => exact absurd ⟨definition, hmem, rfl⟩ (Definition.lastOf?_eq_none_iff.mp hlast)
    | some last =>
      obtain ⟨hid, earlier, later, hsplit, hlater⟩ := Definition.lastOf?_eq_some_iff.mp hlast
      have hget : (TypeMap.ofDefinitions definitions).get? definition.id = some last.resolved := by
        rw [TypeMap.get?_ofDefinitions, hlast, Option.map_some]
      refine ⟨earlier, last, later, hsplit, hid, hlater, hget, ?_⟩
      rw [TypeMap.resolve_eq_ok_iff, Reference.target_pointer, hget]

/-- Definitions whose identifiers look like escapes, or like longer pointers. One comes twice. -/
def escapees : List Definition :=
  [{ id := "a/~1", kind := .primitive "string" },
   { id := "~01/", kind := .mixed },
   { id := "a/~1", kind := .object, title := some "Slash" }]

/-- The pointer to the one that comes twice is resolved to the second of them. -/
theorem escapees_resolved : Reference.escape "a/~1" = "a~1~01" ∧
    ∃ last ∈ escapees, last.resolved = .model "Slash" ∧
      (TypeMap.ofDefinitions escapees).resolve ("#/definitions" ++ "/" ++ Reference.escape "a/~1") =
        .ok last.resolved := by
  obtain ⟨-, -, hpointer⟩ := definitions_reachable_by_pointer
  obtain ⟨earlier, last, later, hsplit, -, -, hget, hresolve⟩ :=
    hpointer escapees "#/definitions" escapees[0] (by decide)
  refine ⟨by decide, last, by simp [hsplit], ?_, hresolve⟩
  exact Option.some.inj (hget.symm.trans (by decide))

end SchemaCompiler
