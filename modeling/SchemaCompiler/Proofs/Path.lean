import Mathlib.Data.List.Basic
import SchemaCompiler.Disk.Path

/-!
# Paths that end in a name

A path is cut at its slashes. Joining a relative path to another one keeps the pieces of both
(`exists_pieces_join`). When it has only ordinary components, as most names of files do, its
components follow those of the other path (`components_join`).

A text adds a single component exactly if it is a name (`components_join_eq_iff`). Names of files end in
an extension. One that can stand behind every text makes names of all of them (`isExtension_iff`), and
whatever it is, it keeps different texts apart (`eq_of_components_join`).
-/

namespace SchemaCompiler.Path

/-! ### Pieces -/

theorem splitSlashes_ne_nil (cs : List Char) : splitSlashes cs ≠ [] := by
  cases cs with
  | nil => simp [splitSlashes]
  | cons c rest =>
    rw [splitSlashes]
    split_ifs
    · simp
    · split <;> simp

theorem splitSlashes_slash (rest : List Char) : splitSlashes ('/' :: rest) = [] :: splitSlashes rest := by
  rw [splitSlashes, if_pos rfl]

theorem splitSlashes_of_notMem {cs : List Char} (h : '/' ∉ cs) : splitSlashes cs = [cs] := by
  induction cs with
  | nil => rfl
  | cons c rest ih =>
    rw [List.mem_cons, not_or] at h
    rw [splitSlashes, if_neg (Ne.symm h.1), ih h.2]

/-- A slash cuts a path in two. -/
theorem splitSlashes_append_slash (front back : List Char) :
    splitSlashes (front ++ '/' :: back) = splitSlashes front ++ splitSlashes back := by
  induction front with
  | nil => exact splitSlashes_slash back
  | cons c front ih =>
    by_cases hc : c = '/'
    · subst hc
      rw [List.cons_append, splitSlashes_slash, splitSlashes_slash, ih, List.cons_append]
    · rw [List.cons_append, splitSlashes, if_neg hc, splitSlashes, if_neg hc, ih]
      -- the first piece is the one that grows, and there always is one
      obtain ⟨piece, pieces, hfront⟩ := List.exists_cons_of_ne_nil (splitSlashes_ne_nil front)
      rw [hfront]
      rfl

/-- A text without slashes in front of a path becomes part of its first piece. -/
theorem splitSlashes_append_of_notMem {front back first : List Char} {later : List (List Char)}
    (h : '/' ∉ front) (hback : splitSlashes back = first :: later) :
    splitSlashes (front ++ back) = (front ++ first) :: later := by
  induction front with
  | nil => exact hback
  | cons c front ih =>
    rw [List.mem_cons, not_or] at h
    rw [List.cons_append, splitSlashes, if_neg (Ne.symm h.1), ih h.2]
    rfl

theorem slash_notMem_of_mem_splitSlashes {cs piece : List Char} (h : piece ∈ splitSlashes cs) :
    '/' ∉ piece := by
  induction cs generalizing piece with
  | nil =>
    rw [splitSlashes, List.mem_singleton] at h
    simp [h]
  | cons c rest ih =>
    rw [splitSlashes] at h
    split_ifs at h with hc
    · rcases List.mem_cons.mp h with rfl | h
      · simp
      · exact ih h
    · obtain ⟨first, later, hrest⟩ := List.exists_cons_of_ne_nil (splitSlashes_ne_nil rest)
      rw [hrest] at h ih
      rcases List.mem_cons.mp h with rfl | h
      · have hfirst := ih List.mem_cons_self
        simp [hfirst, Ne.symm hc]
      · exact ih (List.mem_cons_of_mem _ h)

/-! ### Joining -/

theorem join_empty {next : String} (h : isAbsolute ⟨next⟩ = false) : join ⟨""⟩ next = ⟨next⟩ := by
  simp [join, h]

/-- Between a path and a relative one that is joined to it there is a slash, which may be the last
character of the path. -/
theorem exists_toList_join {path : Path} (h : path.text ≠ "") :
    ∃ front, (path.text.toList = front ∨ path.text.toList = front ++ ['/']) ∧
      ∀ next, isAbsolute ⟨next⟩ = false →
        (path.join next).text.toList = front ++ '/' :: next.toList ∧
          (path.join next).isAbsolute = path.isAbsolute := by
  obtain ⟨text⟩ := path
  have hne : text.toList ≠ [] := by simpa using h
  by_cases hslash : text.toList.getLast? = some '/'
  · -- the slash is the last character of the path
    obtain ⟨front, hfront⟩ := List.getLast?_eq_some_iff.mp hslash
    refine ⟨front, .inr hfront, fun next hnext => ?_⟩
    have hjoin : join ⟨text⟩ next = ⟨text ++ next⟩ := by simp [join, hnext, hslash]
    rw [hjoin, isAbsolute, isAbsolute, String.toList_append, List.head?_append_of_ne_nil _ hne, hfront]
    simp
  · refine ⟨text.toList, .inl rfl, fun next hnext => ?_⟩
    have hjoin : join ⟨text⟩ next = ⟨text ++ "/" ++ next⟩ := by simp [join, hnext, hslash, h]
    rw [hjoin, isAbsolute, isAbsolute, String.toList_append, String.toList_append, List.append_assoc,
      List.head?_append_of_ne_nil _ hne]
    simp

/-- The pieces of a relative path follow those of the path that it is joined to. -/
theorem exists_pieces_join (path : Path) :
    ∃ front, ∀ next, isAbsolute ⟨next⟩ = false →
      splitSlashes (path.join next).text.toList = front ++ splitSlashes next.toList ∧
        (path.join next).isAbsolute = path.isAbsolute := by
  by_cases hempty : path.text = ""
  · obtain rfl : path = ⟨""⟩ := by rw [← hempty]
    refine ⟨[], fun next hnext => ?_⟩
    rw [join_empty hnext, hnext]
    exact ⟨rfl, rfl⟩
  · obtain ⟨front, -, hfront⟩ := exists_toList_join hempty
    refine ⟨splitSlashes front, fun next hnext => ?_⟩
    obtain ⟨htext, habsolute⟩ := hfront next hnext
    rw [htext, splitSlashes_append_slash]
    exact ⟨rfl, habsolute⟩

/-! ### Ordinary paths -/

/-- Paths without root, without a leading point and without steps up: names one below the other. -/
def Ordinary (path : Path) : Prop :=
  ∀ component ∈ path.components, ∃ name, component = .name name

theorem components_of_split {path : Path} {first : List Char} {later : List (List Char)}
    (h : splitSlashes path.text.toList = first :: later) : path.components =
      (if first.isEmpty then if later.isEmpty then [] else [.root]
        else if first = ['.'] then [.here] else (componentOf? first).toList) ++
      later.filterMap componentOf? := by
  rw [components, componentsOf, h]

theorem Ordinary.isAbsolute {path : Path} (h : path.Ordinary) : path.isAbsolute = false := by
  by_contra habsolute
  obtain ⟨rest, hrest⟩ : ∃ rest, path.text.toList = '/' :: rest := by
    simpa [Path.isAbsolute, List.head?_eq_some_iff] using habsolute
  have hsplit := splitSlashes_slash rest
  rw [← hrest] at hsplit
  have hroot : Component.root ∈ path.components := by
    rw [components_of_split hsplit]
    simp [splitSlashes_ne_nil]
  obtain ⟨name, hname⟩ := h _ hroot
  cases hname

/-- Only the first piece of a path can mean something else than the others. -/
theorem Ordinary.components_eq {path : Path} (h : path.Ordinary) :
    path.components = (splitSlashes path.text.toList).filterMap componentOf? := by
  obtain ⟨first, later, hsplit⟩ := List.exists_cons_of_ne_nil (splitSlashes_ne_nil path.text.toList)
  have hcomponents := components_of_split hsplit
  rw [Ordinary, hcomponents] at h
  rw [hcomponents, hsplit]
  by_cases hempty : first = []
  · subst hempty
    cases later with
    | nil => rfl
    | cons _ _ => simpa using h .root (by simp)
  · by_cases hpoint : first = ['.']
    · simpa using h .here (by simp [hpoint])
    · cases hfirst : componentOf? first <;> simp [hempty, hpoint, hfirst]

theorem Ordinary.componentOf?_ne_up {path : Path} (h : path.Ordinary) {piece : List Char}
    (hpiece : piece ∈ splitSlashes path.text.toList) : componentOf? piece ≠ some .up := by
  intro hup
  have hmem : Component.up ∈ path.components := by
    rw [h.components_eq]
    exact List.mem_filterMap.mpr ⟨piece, hpiece, hup⟩
  obtain ⟨name, hname⟩ := h _ hmem
  cases hname

theorem Ordinary.map_componentText {path : Path} (h : path.Ordinary) :
    (path.components.map componentText).map .name = path.components := by
  rw [List.map_map]
  refine List.map_congr_left (g := id) (fun component hcomponent => ?_) |>.trans (List.map_id _)
  obtain ⟨name, rfl⟩ := h component hcomponent
  rfl

theorem eq_nil_of_splitSlashes {cs : List Char} (h : splitSlashes cs = [[]]) : cs = [] := by
  cases cs with
  | nil => rfl
  | cons c rest =>
    rw [splitSlashes] at h
    split_ifs at h
    · simp [splitSlashes_ne_nil] at h
    · split at h <;> simp at h

/-- A slash at the end of a path means nothing, unless it is the whole path. -/
theorem componentsOf_append_slash {cs : List Char} (h : cs ≠ []) :
    componentsOf (cs ++ ['/']) = componentsOf cs := by
  obtain ⟨first, later, hcs⟩ := List.exists_cons_of_ne_nil (splitSlashes_ne_nil cs)
  have hslash : splitSlashes (cs ++ ['/']) = first :: (later ++ [[]]) := by
    rw [splitSlashes_append_slash, hcs]
    rfl
  have hlone : first = [] → later ≠ [] := by
    rintro rfl rfl
    exact h (eq_nil_of_splitSlashes hcs)
  rw [componentsOf, componentsOf, hslash, hcs]
  by_cases hfirst : first = []
  · simp [hfirst, hlone hfirst, componentOf?]
  · simp [hfirst, componentOf?]

/-- The components behind a slash follow those in front of it. -/
theorem componentsOf_append (front back : List Char) :
    componentsOf (front ++ '/' :: back) =
      componentsOf (front ++ ['/']) ++ (splitSlashes back).filterMap componentOf? := by
  obtain ⟨first, later, hfront⟩ := List.exists_cons_of_ne_nil (splitSlashes_ne_nil front)
  rw [componentsOf, componentsOf, splitSlashes_append_slash, splitSlashes_append_slash, hfront]
  simp [splitSlashes, componentOf?, splitSlashes_ne_nil]

/-- What the pieces of a relative path mean follows the components of the path that it is joined to. -/
theorem components_join_relative {path : Path} (hpath : path.text ≠ "") {next : String}
    (h : isAbsolute ⟨next⟩ = false) : (path.join next).components =
      path.components ++ (splitSlashes next.toList).filterMap componentOf? := by
  obtain ⟨front, hfront, hjoin⟩ := exists_toList_join hpath
  have hsame : path.components = componentsOf (front ++ ['/']) := by
    rw [components]
    obtain hfront | hfront := hfront
    · have hne : front ≠ [] := by
        rintro rfl
        exact hpath (by simpa using hfront)
      rw [hfront, componentsOf_append_slash hne]
    · rw [hfront]
  rw [hsame, ← componentsOf_append front, components, (hjoin next h).1]

/-- The components of an ordinary path follow those of the path that it is joined to. -/
theorem components_join (path : Path) {next : String} (h : Ordinary ⟨next⟩) :
    (path.join next).components = path.components ++ components ⟨next⟩ := by
  by_cases hempty : path.text = ""
  · obtain rfl : path = ⟨""⟩ := by rw [← hempty]
    rw [join_empty h.isAbsolute]
    rfl
  · rw [components_join_relative hempty h.isAbsolute, h.components_eq]

/-! ### First pieces -/

theorem componentOf?_eq_none_iff {piece : List Char} :
    componentOf? piece = none ↔ piece = [] ∨ piece = ['.'] := by
  fun_cases componentOf? piece with
  | case1 | case2 | case3 => simp
  | case4 _ hempty hhere _ => simpa using ⟨hempty, hhere⟩

/-- A component is written as the piece that it was read from. -/
theorem toList_componentText {piece : List Char} {component : Component}
    (h : componentOf? piece = some component) : (componentText component).toList = piece := by
  revert h
  fun_cases componentOf? piece with
  | case1 | case2 => simp
  | case3 =>
    rintro ⟨⟩
    rfl
  | case4 =>
    rintro ⟨⟩
    exact String.toList_ofList

/-- A piece can be told from what it means, since only a point means nothing. -/
theorem elim_componentOf? {piece : List Char} (h : piece ≠ []) :
    (componentOf? piece).elim "." componentText = .ofList piece := by
  cases hcomponent : componentOf? piece with
  | none =>
    rw [(componentOf?_eq_none_iff.mp hcomponent).resolve_left h]
    rfl
  | some component =>
    rw [Option.elim_some, ← toList_componentText hcomponent, String.ofList_toList]

theorem isAbsolute_of_split {next : String} {piece : List Char} {later : List (List Char)}
    (hsplit : splitSlashes next.toList = piece :: later) (hpiece : piece ≠ []) :
    isAbsolute ⟨next⟩ = false := by
  rw [isAbsolute, decide_eq_false_iff_not]
  intro habsolute
  obtain ⟨rest, hrest⟩ := List.head?_eq_some_iff.mp habsolute
  rw [hrest, splitSlashes_slash, List.cons.injEq] at hsplit
  exact hpiece hsplit.1.symm

/-- The first piece of a relative path comes behind the path that it is joined to, and what it means there
tells what it is. -/
theorem exists_components_join (path : Path) {next : String} {piece : List Char}
    {later : List (List Char)} (hsplit : splitSlashes next.toList = piece :: later)
    (hpiece : piece ≠ []) : ∃ own, (path.join next).components =
        path.components ++ (own ++ later.filterMap componentOf?) ∧
      own.head?.elim "." componentText = .ofList piece := by
  have hrelative := isAbsolute_of_split hsplit hpiece
  by_cases hempty : path.text = ""
  · obtain rfl : path = ⟨""⟩ := by rw [← hempty]
    rw [join_empty hrelative]
    by_cases hhere : piece = ['.']
    · refine ⟨[.here], ?_, by rw [hhere]; rfl⟩
      rw [components_of_split hsplit, if_neg (by simpa using hpiece), if_pos hhere]
      rfl
    · refine ⟨(componentOf? piece).toList, ?_, by simpa using elim_componentOf? hpiece⟩
      rw [components_of_split hsplit, if_neg (by simpa using hpiece), if_neg hhere]
      rfl
  · refine ⟨(componentOf? piece).toList, ?_, by simpa using elim_componentOf? hpiece⟩
    rw [components_join_relative hempty hrelative, hsplit, List.filterMap_cons]
    cases componentOf? piece <;> rfl

/-! ### Names -/

/-- Whether a text is the name of something in a directory: there is no slash in it, and it does not mean
a step. -/
def IsName (text : String) : Prop :=
  '/' ∉ text.toList ∧ text ≠ "" ∧ text ≠ "." ∧ text ≠ ".."

instance (text : String) : Decidable (IsName text) :=
  inferInstanceAs (Decidable (_ ∧ _))

theorem isName_iff {text : String} : IsName text ↔
    '/' ∉ text.toList ∧ text.toList ≠ [] ∧ text.toList ≠ ['.'] ∧ text.toList ≠ ['.', '.'] := by
  have hchars (other : String) : text ≠ other ↔ text.toList ≠ other.toList :=
    not_congr String.toList_inj.symm
  rw [IsName, hchars, hchars, hchars]
  rfl

theorem componentOf?_eq_name_iff {piece : List Char} {name : String} :
    componentOf? piece = some (.name name) ↔
      .ofList piece = name ∧ piece ≠ [] ∧ piece ≠ ['.'] ∧ piece ≠ ['.', '.'] := by
  fun_cases componentOf? piece with
  | case1 | case2 | case3 => simp
  | case4 piece hempty hhere hup =>
    rw [Option.some.injEq, Component.name.injEq]
    exact ⟨fun hname => ⟨hname, hempty, hhere, hup⟩, And.left⟩

/-- The names among the components of a path are names. -/
theorem isName_of_mem_components {path : Path} {name : String} (h : .name name ∈ path.components) :
    IsName name := by
  obtain ⟨first, later, hsplit⟩ := List.exists_cons_of_ne_nil (splitSlashes_ne_nil path.text.toList)
  obtain ⟨piece, hpiece, hname⟩ : ∃ piece ∈ splitSlashes path.text.toList,
      componentOf? piece = some (.name name) := by
    rw [components_of_split hsplit, List.mem_append] at h
    rw [hsplit]
    obtain hfirst | hlater := h
    · refine ⟨first, List.mem_cons_self, ?_⟩
      split_ifs at hfirst
      · cases hfirst
      · simp at hfirst
      · simp at hfirst
      · simpa using hfirst
    · obtain ⟨piece, hpiece, hname⟩ := List.mem_filterMap.mp hlater
      exact ⟨piece, List.mem_cons_of_mem _ hpiece, hname⟩
  obtain ⟨rfl, hmeant⟩ := componentOf?_eq_name_iff.mp hname
  rw [isName_iff, String.toList_ofList]
  exact ⟨slash_notMem_of_mem_splitSlashes hpiece, hmeant⟩

theorem components_of_isName {name : String} (h : IsName name) : components ⟨name⟩ = [.name name] := by
  obtain ⟨hslash, hempty, hhere, hup⟩ := isName_iff.mp h
  rw [components_of_split (splitSlashes_of_notMem hslash), if_neg hhere,
    componentOf?_eq_name_iff.mpr ⟨String.ofList_toList, hempty, hhere, hup⟩]
  simp [h.2.1]

theorem ordinary_of_isName {name : String} (h : IsName name) : Ordinary ⟨name⟩ := by
  intro component hcomponent
  rw [components_of_isName h, List.mem_singleton] at hcomponent
  exact ⟨name, hcomponent⟩

/-- A text that is joined to a path adds a single component exactly if it is a name. -/
theorem components_join_eq_iff (path : Path) (text : String) :
    (path.join text).components = path.components ++ [.name text] ↔ IsName text := by
  constructor
  · intro h
    have hmem : Component.name text ∈ (path.join text).components := by
      rw [h]
      exact List.mem_append_right _ (List.mem_singleton.mpr rfl)
    exact isName_of_mem_components hmem
  · intro h
    rw [components_join path (ordinary_of_isName h), components_of_isName h]

/-! ### Extensions -/

/-- Whether a text can be the extension of every file: there is no slash in it, and behind a point it does
not mean a step. -/
def IsExtension (text : String) : Prop :=
  '/' ∉ text.toList ∧ text ≠ "" ∧ text ≠ "."

instance (text : String) : Decidable (IsExtension text) :=
  inferInstanceAs (Decidable (_ ∧ _))

/-- What makes a name of a point in front of it is an extension. -/
theorem isExtension_of_isName {extension : String} (h : IsName ("." ++ extension)) :
    IsExtension extension := by
  obtain ⟨hslash, -, hhere, hup⟩ := h
  refine ⟨by simpa using hslash, ?_, ?_⟩
  · rintro rfl
    exact hhere rfl
  · rintro rfl
    exact hup rfl

/-- An extension makes a name of every text without slashes, also of the empty one, and nothing else
does. -/
theorem isExtension_iff (extension : String) : IsExtension extension ↔
    ∀ text : String, '/' ∉ text.toList → IsName (text ++ "." ++ extension) := by
  constructor
  · rintro ⟨hslash, hempty, hpoint⟩ text htext
    have hchars : (text ++ "." ++ extension).toList = text.toList ++ '.' :: extension.toList := by simp
    have hlone : extension.toList ≠ [] := by simpa using hempty
    have hdouble : extension.toList ≠ ['.'] := fun h => hpoint (String.toList_injective h)
    rw [isName_iff, hchars]
    refine ⟨by simp [hslash, htext], by simp, ?_⟩
    cases text.toList with
    | nil => simp [hlone, hdouble]
    | cons c rest => simp [List.append_eq_cons_iff, hlone]
  · intro h
    have hbare := h "" (by simp)
    rw [String.empty_append] at hbare
    exact isExtension_of_isName hbare

/-- Whatever the extension, texts without slashes lead to different places by spelling. -/
theorem eq_of_components_join {path : Path} {a b extension : String} (ha : '/' ∉ a.toList)
    (hb : '/' ∉ b.toList) (h : (path.join (a ++ "." ++ extension)).components =
      (path.join (b ++ "." ++ extension)).components) : a = b := by
  obtain ⟨first, later, hsplit⟩ := List.exists_cons_of_ne_nil (splitSlashes_ne_nil extension.toList)
  have hdot : splitSlashes ("." ++ extension).toList = ('.' :: first) :: later := by
    have hchars : ("." ++ extension).toList = ['.'] ++ extension.toList := by simp
    rw [hchars]
    exact splitSlashes_append_of_notMem (by decide) hsplit
  have hpieces {text : String} (htext : '/' ∉ text.toList) :
      splitSlashes (text ++ "." ++ extension).toList = (text.toList ++ '.' :: first) :: later := by
    rw [String.append_assoc, String.toList_append]
    exact splitSlashes_append_of_notMem htext hdot
  obtain ⟨own, hown, hspelt⟩ := path.exists_components_join (hpieces ha) (by simp)
  obtain ⟨own', hown', hspelt'⟩ := path.exists_components_join (hpieces hb) (by simp)
  rw [hown, hown', List.append_cancel_left_eq, List.append_cancel_right_eq] at h
  rw [h, hspelt', String.ofList_inj, List.append_cancel_right_eq] at hspelt
  exact String.toList_injective hspelt.symm

end SchemaCompiler.Path
