import SchemaCompiler.Disk.Files
import SchemaCompiler.Proofs.Path

/-!
# What writing does to a disk

A file that is written holds the text that was written to it (`readText_eq_ok_iff`,
`writeText_eq_ok_iff`), everything else on the disk is as it was (`entry?_put`), and a path that led
somewhere still leads there: no directory ever becomes something else (`KeepsDirectories`), and only
directories decide where a path leads (`locate_of_keeps`).

Paths with different spellings may lead to one place. Those that follow a common path with ordinary
components only, however, do not (`components_join_eq`).
-/

namespace SchemaCompiler.Disk

variable {disk later : Disk}

/-! ### Entries -/

theorem lookup_putEntry (location other : Location) (entry : Entry)
    (entries : List (Location × Entry)) : (putEntry location entry entries).lookup other =
      if other = location then some entry else entries.lookup other := by
  induction entries with
  | nil =>
    by_cases h : other = location
    · simp [putEntry, h]
    · simp [putEntry, List.lookup_cons, beq_false_of_ne h, h]
  | cons row rows ih =>
    obtain ⟨place, old⟩ := row
    rw [putEntry]
    by_cases hrow : place = location
    · subst hrow
      by_cases h : other = place
      · simp [h]
      · simp [List.lookup_cons, beq_false_of_ne h, h]
    · rw [if_neg hrow, List.lookup_cons, List.lookup_cons, ih]
      by_cases h : other = place
      · simp [h, hrow]
      · simp [beq_false_of_ne h]

/-- What is put at a place is there, and everything else is as it was. There is a directory at the
root, always. -/
theorem entry?_put {location : Location} (h : disk.entry? location ≠ some .directory) (entry : Entry)
    (other : Location) : entry? (disk.put location entry) other =
      if other = location then some entry else disk.entry? other := by
  have hne : location ≠ [] := by
    rintro rfl
    exact h rfl
  unfold entry? put
  rw [lookup_putEntry]
  by_cases hroot : other = []
  · simp [hroot, hne.symm]
  · simp [hroot]

/-! ### Where paths lead -/

/-- A disk has the directories of an earlier one, and paths start at the same place. -/
structure KeepsDirectories (disk later : Disk) : Prop where
  /-- Relative paths start where they did. -/
  working : later.working = disk.working
  /-- What was a directory is one. -/
  directory : ∀ location, disk.entry? location = some .directory →
    later.entry? location = some .directory

theorem KeepsDirectories.refl (disk : Disk) : KeepsDirectories disk disk :=
  ⟨rfl, fun _ h => h⟩

theorem KeepsDirectories.start_eq (h : KeepsDirectories disk later) (path : Path) :
    later.start path = disk.start path := by
  rw [start, start, h.working]

theorem KeepsDirectories.trans {latest : Disk} (h : KeepsDirectories disk later)
    (h' : KeepsDirectories later latest) : KeepsDirectories disk latest :=
  ⟨h'.working.trans h.working, fun location hdir => h'.directory location (h.directory location hdir)⟩

theorem keepsDirectories_put {location : Location} (h : disk.entry? location ≠ some .directory)
    (entry : Entry) : KeepsDirectories disk (disk.put location entry) := by
  refine ⟨rfl, fun other hdir => ?_⟩
  have hne : other ≠ location := fun e => h (e ▸ hdir)
  rw [entry?_put h, if_neg hne, hdir]

/-- Only a directory can be left. -/
theorem directory_of_step {location place : Location} {piece : String}
    (h : disk.step location piece = .ok place) : disk.entry? location = some .directory := by
  rw [step] at h
  split at h
  · cases h
  · cases h
  · assumption

theorem walk_append {location place : Location} {front back : List String} :
    disk.walk location (front ++ back) = .ok place ↔
      ∃ next, disk.walk location front = .ok next ∧ disk.walk next back = .ok place := by
  induction front generalizing location with
  | nil => simp [walk]
  | cons piece front ih =>
    rw [List.cons_append, walk, walk]
    cases disk.step location piece with
    | error fault => simp
    | ok next => exact ih

/-- A step that does not lead up leads to the component of its piece, and stays where it is when the
piece means nothing. -/
theorem step_piece {location place : Location} {piece : List Char}
    (hup : Path.componentOf? piece ≠ some .up) (h : disk.step location (.ofList piece) = .ok place) :
    place = location ++ (Path.componentOf? piece).toList.map Path.componentText := by
  rw [step, directory_of_step h] at h
  revert hup
  fun_cases Path.componentOf? piece with
  | case1 | case2 => exact fun _ => by simpa using h.symm
  | case3 => exact fun hup => absurd rfl hup
  | case4 _ hempty hhere hpoints =>
    intro _
    have hname : ∀ cs : List Char, piece ≠ cs → String.ofList piece ≠ .ofList cs :=
      fun cs hne heq => hne (String.ofList_injective heq)
    have hnothing : ¬ (String.ofList piece = "" || String.ofList piece = ".") = true := by
      simpa using ⟨hempty, hname ['.'] hhere⟩
    rw [if_neg hnothing, if_neg (hname ['.', '.'] hpoints)] at h
    split_ifs at h
    exact (Except.ok.inj h).symm

/-- A walk that does not lead up leads to the components of its pieces. -/
theorem walk_pieces {location place : Location} {pieces : List (List Char)}
    (hup : ∀ piece ∈ pieces, Path.componentOf? piece ≠ some .up)
    (h : disk.walk location (pieces.map .ofList) = .ok place) :
    place = location ++ (pieces.filterMap Path.componentOf?).map Path.componentText := by
  induction pieces generalizing location with
  | nil => simpa [walk] using h.symm
  | cons piece pieces ih =>
    rw [List.forall_mem_cons] at hup
    rw [List.map_cons, walk] at h
    cases hstep : disk.step location (.ofList piece) with
    | error fault => simp [hstep] at h
    | ok next =>
      simp only [hstep] at h
      rw [ih hup.2 h, step_piece hup.1 hstep, List.filterMap_cons]
      cases Path.componentOf? piece <;> simp

theorem locate_eq_ok_iff {path : Path} {place : Location} :
    disk.locate path = .ok place ↔
      checkPath path = .ok () ∧ disk.walk (disk.start path) path.pieces = .ok place := by
  rw [locate]
  cases checkPath path <;> simp

/-- Ordinary paths that are joined to a path lead to the names of their components below one place,
which is where the path leads. -/
theorem exists_base_of_locate_join (disk : Disk) (path : Path) :
    ∃ base, ∀ next place, Path.Ordinary ⟨next⟩ → disk.locate (path.join next) = .ok place →
      place = base ++ (Path.components ⟨next⟩).map Path.componentText := by
  obtain ⟨front, hfront⟩ := path.exists_pieces_join
  have hwalk : ∀ next place, Path.Ordinary ⟨next⟩ → disk.locate (path.join next) = .ok place →
      ∃ base, disk.walk (disk.start path) (front.map .ofList) = .ok base ∧
        place = base ++ (Path.components ⟨next⟩).map Path.componentText := by
    intro next place hnext hlocate
    obtain ⟨hsplit, habsolute⟩ := hfront next hnext.isAbsolute
    have hstart : disk.start (path.join next) = disk.start path := by rw [start, start, habsolute]
    have hall := (locate_eq_ok_iff.mp hlocate).2
    rw [hstart, Path.pieces, hsplit, List.map_append, walk_append] at hall
    obtain ⟨base, hbase, hnames⟩ := hall
    refine ⟨base, hbase, ?_⟩
    rw [hnext.components_eq]
    exact walk_pieces (fun piece hpiece => hnext.componentOf?_ne_up hpiece) hnames
  cases hbase : disk.walk (disk.start path) (front.map .ofList) with
  | error fault =>
    refine ⟨[], fun next place hnext hlocate => ?_⟩
    obtain ⟨base, hok, -⟩ := hwalk next place hnext hlocate
    simp [hbase] at hok
  | ok base =>
    refine ⟨base, fun next place hnext hlocate => ?_⟩
    obtain ⟨base', hok, hplace⟩ := hwalk next place hnext hlocate
    rw [hbase, Except.ok.injEq] at hok
    rw [hplace, hok]

/-- Two ordinary paths that lead from a common path to one place are spelled alike. -/
theorem components_join_eq {path : Path} {a b : String} {place : Location}
    (ha : Path.Ordinary ⟨a⟩) (hb : Path.Ordinary ⟨b⟩)
    (hplace : disk.locate (path.join a) = .ok place)
    (hplace' : disk.locate (path.join b) = .ok place) :
    (path.join a).components = (path.join b).components := by
  obtain ⟨base, hbase⟩ := disk.exists_base_of_locate_join path
  have hnames : (Path.components ⟨a⟩).map Path.componentText =
      (Path.components ⟨b⟩).map Path.componentText :=
    List.append_cancel_left ((hbase a place ha hplace).symm.trans (hbase b place hb hplace'))
  rw [path.components_join ha, path.components_join hb, ← ha.map_componentText, ← hb.map_componentText, hnames]

section Keeps

variable (keeps : KeepsDirectories disk later)

include keeps

theorem step_of_keeps {location place : Location} {piece : String}
    (h : disk.step location piece = .ok place) : later.step location piece = .ok place := by
  have hdir := directory_of_step h
  rw [step, hdir] at h
  rw [step, keeps.directory location hdir]
  exact h

theorem walk_of_keeps {location place : Location} {pieces : List String}
    (h : disk.walk location pieces = .ok place) : later.walk location pieces = .ok place := by
  induction pieces generalizing location with
  | nil => exact h
  | cons piece pieces ih =>
    rw [walk] at h ⊢
    cases hstep : disk.step location piece with
    | error fault => simp [hstep] at h
    | ok next =>
      simp only [hstep] at h
      rw [step_of_keeps keeps hstep]
      exact ih h

/-- A path that led somewhere still leads there. -/
theorem locate_of_keeps {path : Path} {place : Location} (h : disk.locate path = .ok place) :
    later.locate path = .ok place := by
  rw [locate_eq_ok_iff] at h ⊢
  rw [keeps.start_eq]
  exact ⟨h.1, walk_of_keeps keeps h.2⟩

end Keeps

/-! ### Writing and reading -/

/-- A text is written to the place that a path leads to, unless there is a directory. -/
theorem writeText_eq_ok_iff {path : Path} {text : String} :
    disk.writeText path text = .ok later ↔
      ∃ location, disk.locate path = .ok location ∧ disk.entry? location ≠ some .directory ∧
        disk.put location (.file text.toUTF8) = later := by
  rw [writeText, writeBytes]
  cases disk.locate path with
  | error fault => simp
  | ok location =>
    cases hentry : disk.entry? location with
    | none => simp [hentry]
    | some entry => cases entry <;> simp [hentry]

theorem fromUTF8?_eq_some_iff {content : ByteArray} {text : String} :
    String.fromUTF8? content = some text ↔ content = text.toUTF8 := by
  constructor
  · intro h
    rw [String.fromUTF8?] at h
    split_ifs at h
    cases h
    rfl
  · rintro rfl
    rw [String.fromUTF8?, dif_pos (by simpa using text.isValidUTF8)]
    rfl

/-- A text is read from the place that a path leads to, when there is a file with this text. -/
theorem readText_eq_ok_iff {path : Path} {text : String} :
    disk.readText path = .ok text ↔
      ∃ location, disk.locate path = .ok location ∧
        disk.entry? location = some (.file text.toUTF8) := by
  rw [readText, readBytes]
  cases disk.locate path with
  | error fault => simp
  | ok location =>
    cases hentry : disk.entry? location with
    | none => simp [hentry]
    | some entry =>
      cases entry with
      | directory => simp [hentry]
      | file content =>
        have htext : String.fromUTF8? content = some text ↔ content = text.toUTF8 :=
          fromUTF8?_eq_some_iff
        cases hread : String.fromUTF8? content <;> simp_all

end SchemaCompiler.Disk
