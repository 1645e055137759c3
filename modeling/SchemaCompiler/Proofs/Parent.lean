import SchemaCompiler.Disk.Files
import SchemaCompiler.Proofs.Path

/-!
# The directories that lead to a path

The parent of a path is put together anew from the components of the path without the last one. That
brings back the components that it is put together from (`components_parent`), so a parent starts where
the path does and makes its first steps (`Above.parent`). Slashes at the end of a path do not count among
its components (`components_withoutEndSlashes`).
-/

namespace SchemaCompiler

/-- A component that leads from one place to another: any but the root and a leading point. -/
def Component.leads : Component → Bool
  | .root | .here => false
  | .up | .name _ => true

namespace Path

/-! ### Pieces -/

/-- Pieces that are put together with slashes are cut apart again. -/
theorem splitSlashes_intercalate {pieces : List (List Char)} (hne : pieces ≠ [])
    (h : ∀ piece ∈ pieces, '/' ∉ piece) : splitSlashes (['/'].intercalate pieces) = pieces := by
  induction pieces with
  | nil => exact absurd rfl hne
  | cons piece pieces ih =>
    rw [List.forall_mem_cons] at h
    cases pieces with
    | nil => simpa using splitSlashes_of_notMem h.1
    | cons next later =>
      rw [List.intercalate_cons_cons, List.append_assoc, List.singleton_append,
        splitSlashes_append_slash, splitSlashes_of_notMem h.1, ih (by simp) h.2,
        List.singleton_append]

/-! ### Components -/

/-- The components that a path leads along. -/
def steps (path : Path) : List Component :=
  (splitSlashes path.text.toList).filterMap componentOf?

/-- A component that is read back from how it is written between slashes. -/
def Spelled (component : Component) : Prop :=
  componentOf? (componentText component).toList = some component ∧
    '/' ∉ (componentText component).toList

/-- The components of a path are those that it leads along, behind the root or a leading point where it
begins with one. -/
theorem components_eq_append_steps (path : Path) : ∃ front, path.components = front ++ path.steps ∧
    (front = [.root] ∧ path.isAbsolute = true ∨
      (front = [] ∨ front = [.here]) ∧ path.isAbsolute = false) := by
  obtain ⟨text⟩ := path
  cases htext : text.toList with
  | nil =>
    have hsplit : splitSlashes text.toList = [[]] := by rw [htext, splitSlashes]
    refine ⟨[], ?_, .inr ⟨.inl rfl, by simp [isAbsolute, htext]⟩⟩
    rw [components_of_split hsplit, steps, hsplit]
    rfl
  | cons c rest =>
    by_cases hc : c = '/'
    · subst hc
      have hsplit : splitSlashes text.toList = [] :: splitSlashes rest := by
        rw [htext, splitSlashes_slash]
      refine ⟨[.root], ?_, .inl ⟨rfl, by simp [isAbsolute, htext]⟩⟩
      rw [components_of_split hsplit, steps, hsplit]
      simp [splitSlashes_ne_nil, List.filterMap_cons, componentOf?]
    · obtain ⟨piece, pieces, hrest⟩ := List.exists_cons_of_ne_nil (splitSlashes_ne_nil rest)
      have hsplit : splitSlashes text.toList = (c :: piece) :: pieces := by
        rw [htext, splitSlashes, if_neg hc, hrest]
      have hrelative : isAbsolute ⟨text⟩ = false := by simp [isAbsolute, htext, hc]
      by_cases hpoint : c :: piece = ['.']
      · refine ⟨[.here], ?_, .inr ⟨.inr rfl, hrelative⟩⟩
        rw [components_of_split hsplit, steps, hsplit, hpoint]
        simp [componentOf?]
      · refine ⟨[], ?_, .inr ⟨.inl rfl, hrelative⟩⟩
        rw [components_of_split hsplit, steps, hsplit]
        cases hcomponent : componentOf? (c :: piece) with
        | none => exact absurd (componentOf?_eq_none_iff.mp hcomponent) (by simp [hpoint])
        | some component => simp [hcomponent, hpoint]

theorem spelled_of_mem_steps {path : Path} {component : Component} (h : component ∈ path.steps) :
    Spelled component := by
  obtain ⟨piece, hpiece, hcomponent⟩ := List.mem_filterMap.mp h
  rw [Spelled, toList_componentText hcomponent]
  exact ⟨hcomponent, slash_notMem_of_mem_splitSlashes hpiece⟩

theorem Spelled.leads {component : Component} (h : Spelled component) : component.leads = true := by
  cases component with
  | root => exact absurd h.1 (by decide)
  | here => exact absurd h.1 (by decide)
  | up => rfl
  | name s => rfl

/-- A path leads along those of its components that lead somewhere. -/
theorem steps_eq_filter (path : Path) : path.steps = path.components.filter Component.leads := by
  have hall : path.steps.filter Component.leads = path.steps :=
    List.filter_eq_self.mpr fun component hmem => (spelled_of_mem_steps hmem).leads
  obtain ⟨front, hcomponents, ⟨rfl, -⟩ | ⟨rfl | rfl, -⟩⟩ := path.components_eq_append_steps
  all_goals rw [hcomponents, List.filter_append, hall]
  all_goals rfl

/-- A path starts at the root when its first component is the root. -/
theorem isAbsolute_iff_head? (path : Path) :
    path.isAbsolute = true ↔ path.components.head? = some .root := by
  obtain ⟨front, hcomponents, ⟨rfl, habsolute⟩ | ⟨rfl | rfl, hrelative⟩⟩ :=
    path.components_eq_append_steps
  · simp [hcomponents, habsolute]
  · have hroot : path.steps.head? ≠ some .root := fun h =>
      Bool.false_ne_true (spelled_of_mem_steps (List.mem_of_mem_head? h)).leads
    simp [hcomponents, hrelative, hroot]
  · simp [hcomponents, hrelative]

/-- Behind its first component, which may be the root or a leading point, a path has only components that
are read back. -/
theorem spelled_of_components {path : Path} {first : Component} {later : List Component}
    (h : path.components = first :: later) :
    (first = .root ∨ first = .here ∨ Spelled first) ∧ ∀ component ∈ later, Spelled component := by
  obtain ⟨front, hcomponents, ⟨rfl, -⟩ | ⟨rfl | rfl, -⟩⟩ := path.components_eq_append_steps
  all_goals rw [hcomponents] at h
  · obtain ⟨rfl, rfl⟩ := List.cons.inj h
    exact ⟨.inl rfl, fun component => spelled_of_mem_steps⟩
  · have hmem : ∀ component ∈ first :: later, Spelled component := fun component hcomponent =>
      spelled_of_mem_steps (by rwa [← h] at hcomponent)
    rw [List.forall_mem_cons] at hmem
    exact ⟨.inr (.inr hmem.1), hmem.2⟩
  · obtain ⟨rfl, rfl⟩ := List.cons.inj h
    exact ⟨.inr (.inl rfl), fun component => spelled_of_mem_steps⟩

/-- Only the empty text has no components. -/
theorem text_eq_empty {path : Path} (h : path.components = []) : path.text = "" := by
  obtain ⟨piece, pieces, hsplit⟩ := List.exists_cons_of_ne_nil (splitSlashes_ne_nil path.text.toList)
  rw [components_of_split hsplit, List.append_eq_nil_iff] at h
  obtain ⟨hfirst, -⟩ := h
  split_ifs at hfirst with hempty hlone hpoint
  · rw [List.isEmpty_iff] at hempty hlone
    rw [hempty, hlone] at hsplit
    simpa using eq_nil_of_splitSlashes hsplit
  · rw [Option.toList_eq_nil_iff, componentOf?_eq_none_iff] at hfirst
    simp_all

/-! ### Parents -/

/-- Components are read back from the path that they spell. -/
theorem components_ofComponents {first : Component} {later : List Component}
    (hfirst : first = .root ∨ first = .here ∨ Spelled first)
    (hlater : ∀ component ∈ later, Spelled component) :
    (ofComponents (first :: later)).components = first :: later := by
  by_cases hroot : first :: later = [.root]
  · rw [hroot]
    decide
  have hread : (later.map fun component => (componentText component).toList).filterMap componentOf? =
      later := by
    rw [List.filterMap_map]
    exact (List.filterMap_congr fun component hmem => (hlater component hmem).1).trans List.filterMap_some
  have hslash : ∀ piece ∈ (first :: later).map fun component => (componentText component).toList,
      '/' ∉ piece := by
    rw [List.map_cons, List.forall_mem_cons, List.forall_mem_map]
    refine ⟨?_, fun component hmem => (hlater component hmem).2⟩
    obtain rfl | rfl | hspelled := hfirst
    · decide
    · decide
    · exact hspelled.2
  have hsplit : splitSlashes (ofComponents (first :: later)).text.toList =
      (componentText first).toList :: later.map fun component => (componentText component).toList := by
    have htext : ofComponents (first :: later) =
        ⟨"/".intercalate ((first :: later).map componentText)⟩ := by
      rw [ofComponents]
      · simp
      · exact hroot
    rw [htext, String.toList_intercalate, List.map_map]
    exact splitSlashes_intercalate (by simp) hslash
  rw [components_of_split hsplit, hread]
  obtain rfl | rfl | hspelled := hfirst
  · have hlong : later ≠ [] := by
      rintro rfl
      exact hroot rfl
    simp [componentText, hlong]
  · simp [componentText]
  · have hsome := hspelled.1
    have hempty : (componentText first).toList ≠ [] := fun h => by simp [h, componentOf?] at hsome
    have hpoint : (componentText first).toList ≠ ['.'] := fun h => by simp [h, componentOf?] at hsome
    rw [List.isEmpty_eq_false_iff.mpr hempty, if_neg Bool.false_ne_true, if_neg hpoint, hsome]
    rfl

/-- The parent of a path has its components without the last one. -/
theorem components_parent {path : Path} (h : path.components.dropLast ≠ []) :
    path.parent.components = path.components.dropLast := by
  obtain ⟨first, later, hcomponents⟩ := List.exists_cons_of_ne_nil h
  obtain ⟨last, hall⟩ := List.dropLast_prefix path.components
  rw [hcomponents, List.cons_append] at hall
  obtain ⟨hfirst, hlater⟩ := spelled_of_components hall.symm
  rw [parent, hcomponents]
  exact components_ofComponents hfirst fun component hmem =>
    hlater component (List.mem_append_left _ hmem)

/-- A path is above another when it starts where the other does and makes the first of its steps. -/
structure Above (path target : Path) : Prop where
  /-- Both start at the root, or neither. -/
  isAbsolute : path.isAbsolute = target.isAbsolute
  /-- The way is the same as far as it goes. -/
  steps : path.steps <+: target.steps

theorem Above.refl (path : Path) : path.Above path :=
  ⟨rfl, List.prefix_refl _⟩

theorem Above.parent {path target : Path} (h : path.Above target)
    (hlong : path.components.dropLast ≠ []) : path.parent.Above target := by
  have hparent := components_parent hlong
  obtain ⟨last, hall⟩ := List.dropLast_prefix path.components
  have hhead : path.parent.components.head? = path.components.head? := by
    rw [hparent, ← List.head?_append_of_ne_nil _ hlong, hall]
  constructor
  · rw [← h.isAbsolute, Bool.eq_iff_iff, isAbsolute_iff_head?, isAbsolute_iff_head?, hhead]
  · refine List.IsPrefix.trans ?_ h.steps
    rw [steps_eq_filter, steps_eq_filter, hparent]
    exact (List.dropLast_prefix _).filter _

/-! ### Slashes at the end -/

/-- Slashes are taken from the end of a path unless nothing else would be left. -/
theorem exists_withoutEndSlashes (path : Path) : ∃ n,
    path.text.toList = (Disk.withoutEndSlashes path).text.toList ++ List.replicate n '/' ∧
      (n ≠ 0 → (Disk.withoutEndSlashes path).text.toList ≠ []) := by
  unfold Disk.withoutEndSlashes
  set cs := path.text.toList.reverse with hcs
  by_cases hempty : cs.dropWhile (· == '/') = []
  · exact ⟨0, by simp [hempty], by simp⟩
  · have hslashes : cs.takeWhile (· == '/') = List.replicate (cs.takeWhile (· == '/')).length '/' := by
      refine List.eq_replicate_iff.mpr ⟨rfl, fun c hc => ?_⟩
      have hc := List.all_eq_true.mp (List.all_takeWhile (p := (· == '/')) (l := cs)) c hc
      simpa using hc
    refine ⟨(cs.takeWhile (· == '/')).length, ?_, by simp [hempty]⟩
    have hall : path.text.toList =
        (cs.dropWhile (· == '/')).reverse ++ (cs.takeWhile (· == '/')).reverse := by
      rw [← List.reverse_append, List.takeWhile_append_dropWhile, hcs, List.reverse_reverse]
    rw [hslashes, List.reverse_replicate] at hall
    simpa [hempty] using hall

theorem componentsOf_append_slashes {cs : List Char} (h : cs ≠ []) (n : Nat) :
    componentsOf (cs ++ List.replicate n '/') = componentsOf cs := by
  induction n with
  | zero => simp
  | succ n ih =>
    rw [List.replicate_succ', ← List.append_assoc, componentsOf_append_slash (by simp [h]), ih]

theorem components_withoutEndSlashes (path : Path) :
    (Disk.withoutEndSlashes path).components = path.components := by
  obtain ⟨n, htext, hne⟩ := path.exists_withoutEndSlashes
  rw [components, components, htext]
  by_cases hn : n = 0
  · simp [hn]
  · rw [componentsOf_append_slashes (hne hn)]

theorem Above.withoutEndSlashes {path target : Path} (h : path.Above target) :
    (Disk.withoutEndSlashes path).Above target := by
  have hcomponents := path.components_withoutEndSlashes
  constructor
  · rw [← h.isAbsolute, Bool.eq_iff_iff, isAbsolute_iff_head?, isAbsolute_iff_head?, hcomponents]
  · rw [steps_eq_filter, hcomponents, ← steps_eq_filter]
    exact h.steps

theorem splitSlashes_append_slashes (cs : List Char) (n : Nat) :
    splitSlashes (cs ++ List.replicate n '/') = splitSlashes cs ++ List.replicate n [] := by
  induction n with
  | zero => simp
  | succ n ih =>
    rw [List.replicate_succ', ← List.append_assoc, splitSlashes_append_slash, ih, List.replicate_succ',
      List.append_assoc]
    rfl

/-- The slashes at the end of a path are pieces without anything in them. -/
theorem exists_pieces_withoutEndSlashes (path : Path) :
    ∃ n, path.pieces = (Disk.withoutEndSlashes path).pieces ++ List.replicate n "" := by
  obtain ⟨n, htext, -⟩ := path.exists_withoutEndSlashes
  refine ⟨n, ?_⟩
  rw [pieces, htext, splitSlashes_append_slashes, List.map_append, List.map_replicate]
  rfl

end Path

end SchemaCompiler
