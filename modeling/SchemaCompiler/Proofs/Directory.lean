import SchemaCompiler.Proofs.Disk
import SchemaCompiler.Proofs.Parent

/-!
# What making directories does to a disk

Making a directory with those that lead to it adds directories to a disk, all of them at places that its
path passes through, and changes nothing else; this also holds when a directory cannot be made
(`gains_makeDirectories`). When it succeeds there are directories all along the way
(`directory_of_makeDirectories`), and it can be repeated without effect for as long as directories stay
what they are (`makeDirectories_again`).

The directories that lead to a path are found by its components, but a path is walked by its pieces,
among which are empty ones and points. To a directory both lead alike (`walk_filterMap_iff`), and so the
places that are made are on the way of the path that was asked for (`passes_of_above`).
-/

namespace SchemaCompiler.Disk

open SchemaCompiler.Path

variable {disk later : Disk} {path target : Path} {location place : Location}

/-! ### The way of a path -/

/-- A place that a path passes through, or ends at, as it is walked. -/
def Passes (disk : Disk) (path : Path) (place : Location) : Prop :=
  ∃ front, front ≠ [] ∧ front <+: path.pieces ∧ disk.walk (disk.start path) front = .ok place

/-- A walk that ends in a directory begins in one. -/
theorem directory_of_walk {pieces : List String} (h : disk.walk location pieces = .ok place)
    (hplace : disk.entry? place = some .directory) : disk.entry? location = some .directory := by
  cases pieces with
  | nil =>
    rw [walk, Except.ok.injEq] at h
    rw [h, hplace]
  | cons piece pieces =>
    rw [walk] at h
    cases hstep : disk.step location piece with
    | error fault => simp [hstep] at h
    | ok next => exact directory_of_step hstep

theorem step_of_componentOf?_eq_none {piece : List Char} (h : componentOf? piece = none)
    (hdir : disk.entry? location = some .directory) :
    disk.step location (.ofList piece) = .ok location := by
  rw [step, hdir]
  rcases componentOf?_eq_none_iff.mp h with rfl | rfl <;> rfl

/-- To a directory, pieces of a path lead just as the components among them. -/
theorem walk_filterMap_iff (hplace : disk.entry? place = some .directory) {pieces : List (List Char)} :
    disk.walk location (pieces.map .ofList) = .ok place ↔
      disk.walk location ((pieces.filterMap componentOf?).map componentText) = .ok place := by
  induction pieces generalizing location with
  | nil => rfl
  | cons piece pieces ih =>
    cases hcomponent : componentOf? piece with
    | none =>
      rw [List.filterMap_cons_none hcomponent, List.map_cons]
      constructor
      · intro h
        have hstay := step_of_componentOf?_eq_none hcomponent (directory_of_walk h hplace)
        rw [walk, hstay] at h
        exact ih.mp h
      · intro h
        have hstay := step_of_componentOf?_eq_none hcomponent (directory_of_walk h hplace)
        rw [walk, hstay]
        exact ih.mpr h
    | some component =>
      have htext : componentText component = .ofList piece := by
        rw [← toList_componentText hcomponent, String.ofList_toList]
      rw [List.filterMap_cons_some hcomponent, List.map_cons, List.map_cons, htext, walk, walk]
      cases disk.step location (.ofList piece) with
      | error fault => simp
      | ok next => exact ih

/-- A path only leads somewhere from a directory. -/
theorem directory_start (h : disk.locate path = .ok place) :
    disk.entry? (disk.start path) = some .directory := by
  have hwalk := (locate_eq_ok_iff.mp h).2
  obtain ⟨piece, pieces, hpieces⟩ := List.exists_cons_of_ne_nil (splitSlashes_ne_nil path.text.toList)
  rw [Path.pieces, hpieces, List.map_cons, walk] at hwalk
  cases hstep : disk.step (disk.start path) (.ofList piece) with
  | error fault => simp [hstep] at hwalk
  | ok next => exact directory_of_step hstep

/-- A directory to which a path above another leads is on the way of the other. -/
theorem passes_of_above (habove : path.Above target)
    (hlocate : disk.locate path = .ok place) (hplace : disk.entry? place = some .directory)
    (hne : place ≠ disk.start path) : disk.Passes target place := by
  have hwalk := (locate_eq_ok_iff.mp hlocate).2
  have hstart : disk.start target = disk.start path := by rw [start, start, habove.isAbsolute]
  rw [Path.pieces, walk_filterMap_iff hplace] at hwalk
  obtain ⟨front, hfront, hsteps⟩ := List.prefix_filterMap_iff.mp habove.steps
  rw [← Path.steps, hsteps, ← walk_filterMap_iff hplace] at hwalk
  refine ⟨front.map .ofList, ?_, hfront.map _, by rw [hstart, hwalk]⟩
  intro hnil
  rw [hnil, walk, Except.ok.injEq] at hwalk
  exact hne hwalk.symm

theorem isDirectory_iff : disk.isDirectory path = true ↔
    ∃ place, disk.locate path = .ok place ∧ disk.entry? place = some .directory := by
  rw [isDirectory]
  cases disk.locate path with
  | error fault => simp
  | ok place =>
    cases hentry : disk.entry? place with
    | none => simp [hentry]
    | some entry => cases entry <;> simp [hentry]

theorem isDirectory_of_keeps (keeps : KeepsDirectories disk later) (h : disk.isDirectory path = true) :
    later.isDirectory path = true := by
  obtain ⟨place, hplace, hentry⟩ := isDirectory_iff.mp h
  exact isDirectory_iff.mpr ⟨place, locate_of_keeps keeps hplace, keeps.directory place hentry⟩

/-- A path that leads to a directory passes only through directories. -/
theorem directory_of_passes (h : disk.isDirectory path = true) (hpasses : disk.Passes path place) :
    disk.entry? place = some .directory := by
  obtain ⟨front, -, ⟨back, hpieces⟩, hfront⟩ := hpasses
  obtain ⟨last, hlast, hentry⟩ := isDirectory_iff.mp h
  have hwalk := (locate_eq_ok_iff.mp hlast).2
  rw [← hpieces, walk_append] at hwalk
  obtain ⟨next, hnext, hback⟩ := hwalk
  rw [hfront, Except.ok.injEq] at hnext
  subst hnext
  exact directory_of_walk hback hentry

theorem Passes.of_keeps (keeps : KeepsDirectories disk later) (h : disk.Passes path place) :
    later.Passes path place := by
  obtain ⟨front, hne, hfront, hwalk⟩ := h
  exact ⟨front, hne, hfront, by rw [keeps.start_eq, walk_of_keeps keeps hwalk]⟩

/-! ### Slashes at the end -/

theorem walk_replicate_empty (h : disk.entry? location = some .directory) (n : ℕ) :
    disk.walk location (List.replicate n "") = .ok location := by
  induction n with
  | zero => rfl
  | succ n ih =>
    have hstay : disk.step location "" = .ok location := by rw [step, h]; rfl
    rw [List.replicate_succ, walk, hstay]
    exact ih

theorem start_withoutEndSlashes : disk.start (withoutEndSlashes path) = disk.start path := by
  rw [start, start, (Above.refl path).withoutEndSlashes.isAbsolute]

theorem checkPath_eq_ok_iff : checkPath path = .ok () ↔
    '\x00' ∉ path.text.toList ∧ path.text ≠ "" ∧ path.text.utf8ByteSize ≤ maxPath := by
  unfold checkPath
  split_ifs <;> simp_all

/-- A path that is fit to be walked is so without the slashes at its end. -/
theorem checkPath_withoutEndSlashes (h : checkPath path = .ok ()) :
    checkPath (withoutEndSlashes path) = .ok () := by
  obtain ⟨n, htext, hleft⟩ := path.exists_withoutEndSlashes
  rw [checkPath_eq_ok_iff] at h ⊢
  obtain ⟨hnull, hne, hsize⟩ := h
  have hall : path.text = (withoutEndSlashes path).text ++ .ofList (List.replicate n '/') := by
    rw [← String.toList_inj, String.toList_append, String.toList_ofList, htext]
  refine ⟨fun hmem => hnull ?_, fun hempty => ?_, ?_⟩
  · rw [htext]
    exact List.mem_append_left _ hmem
  · by_cases hn : n = 0
    · rw [hn] at hall
      exact hne (by simpa [hempty] using hall)
    · exact hleft hn (by simp [hempty])
  · rw [hall, String.utf8ByteSize_append] at hsize
    omega

/-- Slashes at the end of a path make no difference to the directory that it leads to. -/
theorem locate_withoutEndSlashes (h : checkPath path = .ok ())
    (hplace : disk.entry? place = some .directory) :
    disk.locate (withoutEndSlashes path) = .ok place ↔ disk.locate path = .ok place := by
  obtain ⟨n, hpieces⟩ := path.exists_pieces_withoutEndSlashes
  rw [locate_eq_ok_iff, locate_eq_ok_iff, start_withoutEndSlashes, hpieces, walk_append]
  simp only [h, checkPath_withoutEndSlashes h, true_and]
  constructor
  · intro hwalk
    exact ⟨place, hwalk, walk_replicate_empty hplace n⟩
  · rintro ⟨next, hwalk, hslashes⟩
    rw [walk_replicate_empty (directory_of_walk hslashes hplace), Except.ok.injEq] at hslashes
    rw [← hslashes]
    exact hwalk

/-! ### One directory -/

theorem makeDirectory_eq_ok_iff : disk.makeDirectory path = .ok later ↔
    checkPath path = .ok () ∧ ∃ location, disk.locate (withoutEndSlashes path) = .ok location ∧
      disk.entry? location = none ∧ disk.put location .directory = later := by
  rw [makeDirectory]
  cases checkPath path with
  | error fault => simp
  | ok _ =>
    cases disk.locate (withoutEndSlashes path) with
    | error fault => simp
    | ok location => cases hentry : disk.entry? location <;> simp [hentry]

/-- A disk with some more directories, all of them on the way of a path. -/
structure GainsDirectories (disk later : Disk) (path : Path) : Prop where
  /-- Relative paths start where they did. -/
  working : later.working = disk.working
  /-- Whatever was there is still there. -/
  kept : ∀ place entry, disk.entry? place = some entry → later.entry? place = some entry
  /-- Whatever is new is a directory on the way. -/
  gained : ∀ place entry, later.entry? place = some entry →
    disk.entry? place = some entry ∨ entry = .directory ∧ later.Passes path place

namespace GainsDirectories

theorem refl (disk : Disk) (path : Path) : GainsDirectories disk disk path :=
  ⟨rfl, fun _ _ h => h, fun _ _ h => .inl h⟩

theorem keepsDirectories (h : GainsDirectories disk later path) : KeepsDirectories disk later :=
  ⟨h.working, fun place => h.kept place .directory⟩

theorem trans {latest : Disk} (h : GainsDirectories disk later path)
    (h' : GainsDirectories later latest path) : GainsDirectories disk latest path := by
  refine ⟨h'.working.trans h.working, fun place entry hentry => h'.kept _ _ (h.kept _ _ hentry), ?_⟩
  intro place entry hentry
  obtain hlater | hnew := h'.gained place entry hentry
  · obtain hdisk | ⟨rfl, hpasses⟩ := h.gained place entry hlater
    · exact .inl hdisk
    · exact .inr ⟨rfl, hpasses.of_keeps h'.keepsDirectories⟩
  · exact .inr hnew

/-- The files are the same. -/
theorem file_iff (h : GainsDirectories disk later path) (place : Location) (content : ByteArray) :
    later.entry? place = some (.file content) ↔ disk.entry? place = some (.file content) := by
  constructor
  · intro hfile
    obtain hdisk | ⟨hdir, -⟩ := h.gained place _ hfile
    · exact hdisk
    · cases hdir
  · exact h.kept place _

end GainsDirectories

theorem gains_makeDirectory (habove : path.Above target) (h : disk.makeDirectory path = .ok later) :
    GainsDirectories disk later target := by
  obtain ⟨-, location, hlocate, habsent, rfl⟩ := makeDirectory_eq_ok_iff.mp h
  have hfree : disk.entry? location ≠ some .directory := by simp [habsent]
  have hput := entry?_put hfree .directory
  have hkeeps := keepsDirectories_put hfree .directory
  refine ⟨rfl, fun place entry hentry => ?_, fun place entry hentry => ?_⟩
  · have hne : place ≠ location := by
      rintro rfl
      simp [habsent] at hentry
    rw [hput, if_neg hne, hentry]
  · rw [hput] at hentry
    by_cases hplace : place = location
    · subst hplace
      rw [if_pos rfl, Option.some.injEq] at hentry
      have hdir : entry? (disk.put place .directory) place = some .directory := by
        rw [hput, if_pos rfl]
      have hne : place ≠ disk.start (withoutEndSlashes path) := by
        intro hstart
        have hexists := directory_start hlocate
        rw [← hstart, habsent] at hexists
        cases hexists
      have hpasses := passes_of_above habove.withoutEndSlashes (locate_of_keeps hkeeps hlocate) hdir hne
      exact .inr ⟨hentry.symm, hpasses⟩
    · rw [if_neg hplace] at hentry
      exact .inl hentry

theorem gains_ensureDirectory (disk : Disk) (habove : path.Above target) :
    GainsDirectories disk (disk.ensureDirectory path).1 target := by
  rw [ensureDirectory]
  cases hmake : disk.makeDirectory path with
  | error fault => exact .refl disk target
  | ok later => exact gains_makeDirectory habove hmake

/-- A directory that is made is there afterwards. -/
theorem isDirectory_of_makeDirectory (h : disk.makeDirectory path = .ok later) :
    later.isDirectory path = true := by
  obtain ⟨hcheck, location, hlocate, habsent, rfl⟩ := makeDirectory_eq_ok_iff.mp h
  have hentry : disk.entry? location ≠ some .directory := by simp [habsent]
  have hdir : entry? (disk.put location .directory) location = some .directory := by
    rw [entry?_put hentry, if_pos rfl]
  have hlater := locate_of_keeps (keepsDirectories_put hentry .directory) hlocate
  exact isDirectory_iff.mpr ⟨location, (locate_withoutEndSlashes hcheck hdir).mp hlater, hdir⟩

theorem isDirectory_of_ensureDirectory (h : disk.ensureDirectory path = (later, none)) :
    later.isDirectory path = true := by
  rw [ensureDirectory] at h
  cases hmake : disk.makeDirectory path with
  | error fault =>
    simp only [hmake, Prod.mk.injEq, ite_eq_left_iff, reduceCtorEq, imp_false, not_not] at h
    obtain ⟨rfl, hdir⟩ := h
    simpa using hdir
  | ok made =>
    simp only [hmake, Prod.mk.injEq, and_true] at h
    subst h
    exact isDirectory_of_makeDirectory hmake

/-- Where there is a directory none is made. -/
theorem makeDirectory_of_isDirectory (h : disk.isDirectory path = true) :
    disk.makeDirectory path = .error .alreadyThere := by
  obtain ⟨place, hlocate, hentry⟩ := isDirectory_iff.mp h
  have hcheck := (locate_eq_ok_iff.mp hlocate).1
  simp only [makeDirectory, hcheck, (locate_withoutEndSlashes hcheck hentry).mpr hlocate, hentry]

theorem ensureDirectory_of_isDirectory (h : disk.isDirectory path = true) :
    disk.ensureDirectory path = (disk, none) := by
  simp [ensureDirectory, makeDirectory_of_isDirectory h, h]

/-! ### A directory and those that lead to it -/

/-- One more directory is made when those that lead to it are there. -/
theorem makeDirectoriesFrom_succ (disk : Disk) (path : Path) (n : ℕ) :
    disk.makeDirectoriesFrom path (n + 1) = disk.ensureDirectory path ∨
    (∃ made fault, disk.makeDirectoriesFrom path.parent n = (made, some fault) ∧
      disk.makeDirectoriesFrom path (n + 1) = (made, some fault)) ∨
    ∃ made, disk.makeDirectoriesFrom path.parent n = (made, none) ∧
      disk.makeDirectoriesFrom path (n + 1) = made.ensureDirectory path := by
  rw [makeDirectoriesFrom]
  split
  · obtain ⟨made, _ | fault⟩ := disk.makeDirectoriesFrom path.parent n
    · exact .inr (.inr ⟨made, rfl, rfl⟩)
    · exact .inr (.inl ⟨made, fault, rfl, rfl⟩)
  · exact .inl rfl

theorem gains_makeDirectoriesFrom (disk : Disk) (target : Path) {path : Path} {n : ℕ}
    (h : n ≠ 0 → path.components.length = n ∧ path.Above target) :
    GainsDirectories disk (disk.makeDirectoriesFrom path n).1 target := by
  induction n generalizing path with
  | zero => exact .refl disk target
  | succ n ih =>
    obtain ⟨hlength, habove⟩ := h n.succ_ne_zero
    have hparent : n ≠ 0 → path.parent.components.length = n ∧ path.parent.Above target := by
      intro hn
      have hdrop : path.components.dropLast.length = n := by simp [hlength]
      have hlong : path.components.dropLast ≠ [] := List.ne_nil_of_length_pos (by omega)
      rw [Path.components_parent hlong]
      exact ⟨hdrop, habove.parent hlong⟩
    have hgains := ih hparent
    obtain heq | ⟨made, fault, hmade, heq⟩ | ⟨made, hmade, heq⟩ := makeDirectoriesFrom_succ disk path n
    · rw [heq]
      exact gains_ensureDirectory disk habove
    · rw [hmade] at hgains
      rw [heq]
      exact hgains
    · rw [hmade] at hgains
      rw [heq]
      exact hgains.trans (gains_ensureDirectory made habove)

/-- Making a directory and those that lead to it adds directories on its way and changes nothing else,
also when it fails. -/
theorem gains_makeDirectories {fault : Option FileFault} (h : disk.makeDirectories path = (later, fault)) :
    GainsDirectories disk later path := by
  rw [makeDirectories] at h
  have hgains := gains_makeDirectoriesFrom disk path fun _ => ⟨rfl, .refl path⟩
  rw [h] at hgains
  exact hgains

theorem isDirectory_of_makeDirectoriesFrom {n : ℕ}
    (h : disk.makeDirectoriesFrom path (n + 1) = (later, none)) : later.isDirectory path = true := by
  obtain heq | ⟨made, fault, -, heq⟩ | ⟨made, -, heq⟩ := makeDirectoriesFrom_succ disk path n
  · rw [h] at heq
    exact isDirectory_of_ensureDirectory heq.symm
  · rw [h] at heq
    cases heq
  · rw [h] at heq
    exact isDirectory_of_ensureDirectory heq.symm

/-- A directory that is made with those that lead to it is there afterwards, unless the path is empty. -/
theorem isDirectory_of_makeDirectories (h : disk.makeDirectories path = (later, none)) :
    path.text = "" ∨ later.isDirectory path = true := by
  rw [makeDirectories] at h
  cases hcomponents : path.components with
  | nil => exact .inl (text_eq_empty hcomponents)
  | cons first components =>
    rw [hcomponents, List.length_cons] at h
    exact .inr (isDirectory_of_makeDirectoriesFrom h)

/-- Then all places on the way are directories. -/
theorem directory_of_makeDirectories (h : disk.makeDirectories path = (later, none))
    (hpasses : later.Passes path place) : later.entry? place = some .directory := by
  obtain hempty | hdir := isDirectory_of_makeDirectories h
  · -- the empty path leads from a directory to itself
    obtain ⟨text⟩ := path
    subst hempty
    obtain ⟨front, hne, hfront, hwalk⟩ := hpasses
    have hpieces : Path.pieces ⟨""⟩ = [""] := rfl
    rw [hpieces, List.prefix_cons_iff] at hfront
    obtain rfl | ⟨back, rfl, hback⟩ := hfront
    · exact absurd rfl hne
    rw [List.prefix_nil.mp hback, walk] at hwalk
    cases hstep : later.step (later.start ⟨""⟩) "" with
    | error fault => simp [hstep] at hwalk
    | ok next =>
      have hdir := directory_of_step hstep
      have hstay := walk_replicate_empty hdir 1
      rw [List.replicate_one, walk, hstep] at hstay
      rw [hstep] at hwalk
      rw [hstay, Except.ok.injEq] at hwalk
      rw [← hwalk, hdir]
  · exact directory_of_passes hdir hpasses

/-- What has been made once need not be made again, as long as directories stay what they are. -/
theorem makeDirectories_again {made : Disk} (h : disk.makeDirectories path = (made, none))
    (keeps : KeepsDirectories made later) : later.makeDirectories path = (later, none) := by
  obtain hempty | hdir := isDirectory_of_makeDirectories h
  · obtain ⟨text⟩ := path
    subst hempty
    rfl
  · have hlater := isDirectory_of_keeps keeps hdir
    rw [makeDirectories]
    cases path.components.length with
    | zero => rfl
    | succ n =>
      simp only [makeDirectoriesFrom, makeDirectory_of_isDirectory hlater]
      exact ensureDirectory_of_isDirectory hlater

end SchemaCompiler.Disk
