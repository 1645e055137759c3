import SchemaCompiler.Name
import Mathlib.Data.List.Basic

/-!
# Accessor stems in pieces

The stem of a name is computed in one pass with one flag, which says whether the next character is
raised. What the flag is after a text depends on nothing but the last character of the text, so the stem
of a name is put together from the stems of its pieces.

## What is proved

* `raiseSegments_append` — the pass over two pieces is the pass over each of them, the second one
  started with the flag that the first one ends with.
* `stemOf_append_of_separator` — after a separator the rest of a name has a stem of its own.
* `stemOf_concat_*` — what one more character adds to a stem.
-/

namespace SchemaCompiler.Name

open Text

/-- The stem of a name, on characters. -/
def stemOf (name : List Char) : List Char :=
  raiseSegments true name

@[simp] theorem stemOf_nil : stemOf [] = [] := rfl

theorem accessorStem_eq (name : String) : accessorStem name = .ofList (stemOf name.toList) := rfl

/-- Whether the character after a text is raised, if the first one of the text is raised as the flag
says. -/
def raisesNext (raised : Bool) (front : List Char) : Bool :=
  (front.getLast?.map isSeparator).getD raised

@[simp] theorem raisesNext_nil (raised : Bool) : raisesNext raised [] = raised := rfl

@[simp] theorem raisesNext_concat (raised : Bool) (front : List Char) (c : Char) :
    raisesNext raised (front ++ [c]) = isSeparator c := by
  simp [raisesNext]

theorem raisesNext_cons (raised : Bool) (c : Char) (rest : List Char) :
    raisesNext raised (c :: rest) = raisesNext (isSeparator c) rest := by
  rw [raisesNext, raisesNext, List.getLast?_cons]
  cases rest.getLast? <;> rfl

/-- The flag is all that the first piece of a name passes on to the second. -/
theorem raiseSegments_append (raised : Bool) (front back : List Char) :
    raiseSegments raised (front ++ back) =
      raiseSegments raised front ++ raiseSegments (raisesNext raised front) back := by
  induction front generalizing raised with
  | nil => rfl
  | cons c rest ih =>
    rw [List.cons_append, raiseSegments, raiseSegments, raisesNext_cons]
    cases hc : isSeparator c with
    | true => exact ih true
    | false =>
      rw [if_neg Bool.false_ne_true, if_neg Bool.false_ne_true, ih false, List.append_assoc]

theorem stemOf_append (front back : List Char) :
    stemOf (front ++ back) = stemOf front ++ raiseSegments (raisesNext true front) back :=
  raiseSegments_append true front back

/-- A separator starts over. -/
theorem stemOf_append_of_separator {c : Char} (hc : isSeparator c = true) (front back : List Char) :
    stemOf (front ++ c :: back) = stemOf front ++ stemOf back := by
  rw [stemOf_append, raiseSegments, if_pos hc, stemOf, stemOf]

theorem stemOf_concat_of_separator {c : Char} (hc : isSeparator c = true) (front : List Char) :
    stemOf (front ++ [c]) = stemOf front := by
  rw [stemOf_append_of_separator hc, stemOf_nil, List.append_nil]

/-- The first character of a segment is raised. -/
theorem stemOf_concat_of_raisesNext {c : Char} (hc : isSeparator c = false) {front : List Char}
    (hfront : raisesNext true front = true) : stemOf (front ++ [c]) = stemOf front ++ uppercase c := by
  simp [stemOf_append, hfront, raiseSegments, hc]

/-- Every other character of a segment is kept. -/
theorem stemOf_concat_of_not_raisesNext {c : Char} (hc : isSeparator c = false) {front : List Char}
    (hfront : raisesNext true front = false) : stemOf (front ++ [c]) = stemOf front ++ [c] := by
  simp [stemOf_append, hfront, raiseSegments, hc]

end SchemaCompiler.Name
