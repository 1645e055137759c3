import Mathlib.Data.List.Forall2

/-!
# Traversals that stop at the first fault

Properties and definitions are compiled one after the other, and the first fault ends the run. Here
are the two facts about such a traversal on which the theory of the compiler rests: it succeeds
exactly when every step does, and then its results are those of the steps in order
(`mapM_eq_ok_iff`); and its fault is the first one that any step has (`fault?_mapM`).
-/

namespace SchemaCompiler.Traversal

variable {α β ε : Type}

/-- The fault of an outcome, if it has one. -/
def fault? : Except ε α → Option ε
  | .ok _ => none
  | .error fault => some fault

@[simp] theorem fault?_ok (value : α) : fault? (.ok value : Except ε α) = none := rfl

@[simp] theorem fault?_error (fault : ε) : fault? (.error fault : Except ε α) = some fault := rfl

theorem fault?_eq_some_iff {outcome : Except ε α} {fault : ε} :
    fault? outcome = some fault ↔ outcome = .error fault := by
  cases outcome <;> simp

theorem fault?_eq_none_iff {outcome : Except ε α} :
    fault? outcome = none ↔ ∃ value, outcome = .ok value := by
  cases outcome <;> simp

/-- Two steps succeed when the first does and then the second. -/
theorem bind_eq_ok_iff {step : Except ε α} {next : α → Except ε β} {result : β} :
    step >>= next = .ok result ↔ ∃ value, step = .ok value ∧ next value = .ok result := by
  cases step with
  | error fault => simp [bind, Except.bind]
  | ok value => simp [bind, Except.bind]

/-- Two steps fail when the first does, or it succeeds and then the second fails. -/
theorem bind_eq_error_iff {step : Except ε α} {next : α → Except ε β} {fault : ε} :
    step >>= next = .error fault ↔
      step = .error fault ∨ ∃ value, step = .ok value ∧ next value = .error fault := by
  cases step with
  | error other => simp [bind, Except.bind]
  | ok value => simp [bind, Except.bind]

theorem mapError_eq_ok_iff {ε' : Type} {step : Except ε α} {change : ε → ε'} {value : α} :
    step.mapError change = .ok value ↔ step = .ok value := by
  cases step <;> simp [Except.mapError]

theorem mapError_eq_error_iff {ε' : Type} {step : Except ε α} {change : ε → ε'} {fault : ε'} :
    step.mapError change = .error fault ↔ ∃ cause, step = .error cause ∧ change cause = fault := by
  cases step <;> simp [Except.mapError]

/-- A traversal succeeds exactly when every step does, with the results of the steps in order. -/
theorem mapM_eq_ok_iff (step : α → Except ε β) (xs : List α) (ys : List β) :
    xs.mapM step = .ok ys ↔ List.Forall₂ (fun x y => step x = .ok y) xs ys := by
  induction xs generalizing ys with
  | nil => simp [pure, Except.pure, eq_comm]
  | cons x xs ih =>
    rw [List.mapM_cons, List.forall₂_cons_left_iff]
    simp only [← ih]
    constructor
    · intro h
      cases hx : step x with
      | error fault => simp [hx, bind, Except.bind] at h
      | ok y =>
        cases hxs : xs.mapM step with
        | error fault => simp [hx, hxs, bind, Except.bind] at h
        | ok later =>
          simp only [hx, hxs, bind, Except.bind, pure, Except.pure, Except.ok.injEq] at h
          exact ⟨y, later, rfl, rfl, h.symm⟩
    · rintro ⟨y, later, hx, hxs, rfl⟩
      rw [hx, hxs]
      rfl

/-- The fault of a traversal is that of the first step that has one. -/
theorem fault?_mapM (step : α → Except ε β) (xs : List α) :
    fault? (xs.mapM step) = xs.findSome? fun x => fault? (step x) := by
  induction xs with
  | nil => rfl
  | cons x xs ih =>
    rw [List.mapM_cons, List.findSome?_cons, ← ih]
    cases hx : step x with
    | error fault => rfl
    | ok y => cases hxs : xs.mapM step <;> rfl

theorem mapM_congr {step other : α → Except ε β} {xs : List α} (h : ∀ x ∈ xs, step x = other x) :
    xs.mapM step = xs.mapM other := by
  induction xs with
  | nil => rfl
  | cons x xs ih =>
    rw [List.mapM_cons, List.mapM_cons, h x (by simp), ih fun y hy => h y (List.mem_cons_of_mem x hy)]

/-- A change of every result can be made after a traversal. -/
theorem mapM_map_result {γ : Type} (step : α → Except ε β) (change : β → γ) (xs : List α) :
    (xs.mapM fun x => (step x).map change) = (xs.mapM step).map (List.map change) := by
  induction xs with
  | nil => rfl
  | cons x xs ih =>
    rw [List.mapM_cons, List.mapM_cons, ih]
    cases step x with
    | error fault => rfl
    | ok y => cases xs.mapM step <;> rfl

/-- What every step's result keeps of its source, a traversal keeps of all of them in order. -/
theorem map_eq_of_mapM {γ : Type} {step : α → Except ε β} {xs : List α} {ys : List β}
    {source : α → γ} {result : β → γ} (h : xs.mapM step = .ok ys)
    (agree : ∀ x y, step x = .ok y → result y = source x) : ys.map result = xs.map source := by
  rw [mapM_eq_ok_iff] at h
  induction h with
  | nil => rfl
  | cons hx _ ih => rw [List.map_cons, List.map_cons, agree _ _ hx, ih]

/-- The results of a traversal are those of its sources. -/
theorem mem_of_mapM {step : α → Except ε β} {xs : List α} {ys : List β} (h : xs.mapM step = .ok ys)
    (y : β) : y ∈ ys ↔ ∃ x ∈ xs, step x = .ok y := by
  rw [mapM_eq_ok_iff] at h
  induction h with
  | nil => simp
  | cons hx _ ih => simp [ih, hx, eq_comm]

/-- In a traversal that succeeds every step does. -/
theorem exists_of_mapM {step : α → Except ε β} {xs : List α} {ys : List β} (h : xs.mapM step = .ok ys)
    {x : α} (hx : x ∈ xs) : ∃ y ∈ ys, step x = .ok y := by
  rw [mapM_eq_ok_iff] at h
  induction h with
  | nil => cases hx
  | @cons head y xs ys hstep _ ih =>
    rcases List.mem_cons.mp hx with rfl | hx
    · exact ⟨y, List.mem_cons_self, hstep⟩
    · obtain ⟨later, hlater, hstep⟩ := ih hx
      exact ⟨later, List.mem_cons_of_mem _ hlater, hstep⟩

private theorem find?_of_forall₂ {step : α → Except ε β} {source : α → Bool} {result : β → Bool}
    (agree : ∀ x y, step x = .ok y → result y = source x) {xs : List α} {ys : List β}
    (h : List.Forall₂ (fun x y => step x = .ok y) xs ys) (y : β) :
    ys.find? result = some y ↔ ∃ x, xs.find? source = some x ∧ step x = .ok y := by
  induction h with
  | nil => simp
  | @cons a b xs ys hx _ ih =>
    rw [List.find?_cons, List.find?_cons, agree a b hx]
    cases source a with
    | true => simp [hx]
    | false => exact ih

/-- The first result of a kind is that of the first source of the kind. -/
theorem find?_mapM {step : α → Except ε β} {xs : List α} {ys : List β} (source : α → Bool)
    (result : β → Bool) (h : xs.mapM step = .ok ys)
    (agree : ∀ x y, step x = .ok y → result y = source x) (y : β) :
    ys.find? result = some y ↔ ∃ x, xs.find? source = some x ∧ step x = .ok y :=
  find?_of_forall₂ agree ((mapM_eq_ok_iff step xs ys).mp h) y

/-- The last result of a kind is that of the last source of the kind. -/
theorem find?_reverse_mapM {step : α → Except ε β} {xs : List α} {ys : List β} (source : α → Bool)
    (result : β → Bool) (h : xs.mapM step = .ok ys)
    (agree : ∀ x y, step x = .ok y → result y = source x) (y : β) :
    ys.reverse.find? result = some y ↔ ∃ x, xs.reverse.find? source = some x ∧ step x = .ok y :=
  find?_of_forall₂ agree (List.forall₂_reverse_iff.mpr ((mapM_eq_ok_iff step xs ys).mp h)) y

end SchemaCompiler.Traversal
