import Mathlib.Data.List.Basic

/-!
# Texts cut at separators

A text is cut into its pieces by `List.splitOnP`, and pieces are joined by `List.intercalate`. What holds of
a text without separators, and of a piece with a separator and such a text behind it, holds of every text
(`piecewise_induction`). So what starts over at each separator is computed piece by piece
(`eq_flatMap_splitOnP`). Pieces that are joined and cut again are cut one by one, whatever separators they
hold themselves (`splitOn_intercalate_eq_flatMap`).
-/

namespace SchemaCompiler.Pieces

variable {α β : Type}

/-- Induction along the pieces of a text. -/
@[elab_as_elim]
theorem piecewise_induction (isSeparator : α → Bool) {motive : List α → Prop}
    (last : ∀ piece, (∀ c ∈ piece, isSeparator c = false) → motive piece)
    (more : ∀ piece c back, (∀ d ∈ piece, isSeparator d = false) → isSeparator c = true → motive back →
      motive (piece ++ c :: back))
    (text : List α) : motive text := by
  -- the induction goes along the text behind a first piece that is still growing
  suffices hgrowing : ∀ piece, (∀ c ∈ piece, isSeparator c = false) → motive (piece ++ text) from
    hgrowing [] (by simp)
  induction text with
  | nil =>
    intro piece hpiece
    rw [List.append_nil]
    exact last piece hpiece
  | cons c back ih =>
    intro piece hpiece
    cases hc : isSeparator c with
    | true => exact more piece c back hpiece hc (ih [] (by simp))
    | false =>
      have hlonger := ih (piece ++ [c]) (by simpa [or_imp, forall_and, hc] using hpiece)
      rwa [List.append_assoc, List.singleton_append] at hlonger

/-- What starts over at each separator is computed piece by piece, and the pieces hold no separators. -/
theorem eq_flatMap_splitOnP {isSeparator : α → Bool} {f g : List α → List β}
    (hover : ∀ front c back, isSeparator c = true → f (front ++ c :: back) = f front ++ f back)
    (hpiece : ∀ piece, (∀ c ∈ piece, isSeparator c = false) → f piece = g piece) (text : List α) :
    f text = (text.splitOnP isSeparator).flatMap g := by
  induction text using piecewise_induction isSeparator with
  | last piece h => rw [List.splitOnP_eq_singleton h, List.flatMap_singleton, hpiece piece h]
  | more piece c back h hc ih =>
    rw [List.splitOnP_append_cons_of_forall_mem h c hc, List.flatMap_cons, hover piece c back hc,
      hpiece piece h, ih]

/-- Empty pieces of which nothing is computed may be left out. -/
theorem flatMap_filter_nonempty {g : List α → List β} (h : g [] = []) (pieces : List (List α)) :
    (pieces.filter (!·.isEmpty)).flatMap g = pieces.flatMap g := by
  induction pieces with
  | nil => rfl
  | cons piece later ih =>
    cases piece with
    | nil => rw [List.filter_cons_of_neg (by simp), ih, List.flatMap_cons, h, List.nil_append]
    | cons c rest => rw [List.filter_cons_of_pos (by simp), List.flatMap_cons, ih, List.flatMap_cons]

/-- With a separator in front of each piece, only the first one is too many. -/
theorem flatMap_cons_eq_cons_intercalate (separator : α) {pieces : List (List α)} (h : pieces ≠ []) :
    pieces.flatMap (separator :: ·) = separator :: [separator].intercalate pieces := by
  induction pieces with
  | nil => exact absurd rfl h
  | cons piece later ih =>
    cases later with
    | nil => simp
    | cons next later =>
      rw [List.flatMap_cons, ih (by simp), List.intercalate_cons_cons]
      simp

/-- Joined pieces are cut one by one. -/
theorem splitOn_intercalate_eq_flatMap [BEq α] [LawfulBEq α] (separator : α) {pieces : List (List α)}
    (h : pieces ≠ []) :
    ([separator].intercalate pieces).splitOn separator = pieces.flatMap (·.splitOn separator) := by
  induction pieces with
  | nil => exact absurd rfl h
  | cons piece later ih =>
    cases later with
    | nil => simp
    | cons next later =>
      rw [List.intercalate_cons_cons, List.append_assoc, List.singleton_append,
        List.splitOn_append_cons_self, ih (by simp)]
      exact List.flatMap_cons.symm

end SchemaCompiler.Pieces
