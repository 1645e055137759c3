import SchemaCompiler.Proofs.Footprint

/-!
# Publishing again

A publication that succeeded can be carried out again on the disk that it left. It succeeds again, it
reports the same files and it leaves the same disk (`publish_again`). This is so although outputs may
overwrite each other: in both runs the last one that is written to a place decides.

Writing files is putting their texts at places that do not change meanwhile (`disk_of_writeAll`), and
putting the same things at the same places twice is the same as doing so once (`putAll_putAll`). Disks
are compared as they are, together with the order of their entries.
-/

namespace SchemaCompiler

namespace Disk

variable {disk : Disk}

/-! ### Putting things twice -/

theorem mem_places_putEntry {location place : Location} {entry : Entry}
    {entries : List (Location × Entry)} : place ∈ (putEntry location entry entries).map Prod.fst ↔
      place = location ∨ place ∈ entries.map Prod.fst := by
  induction entries with
  | nil => simp [putEntry]
  | cons row rows ih =>
    rw [putEntry]
    by_cases hrow : row.1 = location
    · simp [hrow]
    · rw [if_neg hrow, List.map_cons, List.mem_cons, List.map_cons, List.mem_cons, ih]
      exact or_left_comm

theorem putEntry_putEntry (location : Location) (entry old : Entry)
    (entries : List (Location × Entry)) :
    putEntry location entry (putEntry location old entries) = putEntry location entry entries := by
  induction entries with
  | nil => simp [putEntry]
  | cons row rows ih =>
    by_cases hrow : row.1 = location
    · simp [putEntry, hrow]
    · simp [putEntry, hrow, ih]

/-- Of things at different places the one that replaces something can be put first or last. -/
theorem putEntry_comm {a b : Location} (hne : a ≠ b) (x y : Entry) {entries : List (Location × Entry)}
    (ha : a ∈ entries.map Prod.fst) :
    putEntry b y (putEntry a x entries) = putEntry a x (putEntry b y entries) := by
  induction entries with
  | nil => cases ha
  | cons row rows ih =>
    by_cases hrow : row.1 = a
    · have hother : row.1 ≠ b := fun h => hne (hrow.symm.trans h)
      simp [putEntry, hrow, hne]
    · rw [List.map_cons, List.mem_cons] at ha
      have hrows := ih (ha.resolve_left fun h => hrow h.symm)
      by_cases hother : row.1 = b
      · simp [putEntry, hother, hne.symm]
      · simp [putEntry, hrow, hother, hrows]

/-- Putting at a place what is there changes nothing. -/
theorem putEntry_of_lookup {location : Location} {entry : Entry} {entries : List (Location × Entry)}
    (h : entries.lookup location = some entry) : putEntry location entry entries = entries := by
  induction entries with
  | nil => cases h
  | cons row rows ih =>
    obtain ⟨place, old⟩ := row
    rw [putEntry]
    by_cases hrow : place = location
    · subst hrow
      rw [List.lookup_cons_self, Option.some.injEq] at h
      rw [if_pos rfl, h]
    · rw [List.lookup_cons, beq_false_of_ne (Ne.symm hrow)] at h
      rw [if_neg hrow, ih h]

/-- The disk with things put at places one after another. -/
def putAll (disk : Disk) (rows : List (Location × Entry)) : Disk :=
  rows.foldl (fun disk row => disk.put row.1 row.2) disk

@[simp]
theorem putAll_cons (disk : Disk) (row : Location × Entry) (rows : List (Location × Entry)) :
    disk.putAll (row :: rows) = (disk.put row.1 row.2).putAll rows :=
  rfl

theorem lookup_putAll_of_notMem {place : Location} {rows : List (Location × Entry)}
    (h : place ∉ rows.map Prod.fst) :
    (disk.putAll rows).entries.lookup place = disk.entries.lookup place := by
  induction rows generalizing disk with
  | nil => rfl
  | cons row rows ih =>
    rw [List.map_cons, List.mem_cons, not_or] at h
    rw [putAll_cons, ih h.2, put, lookup_putEntry, if_neg h.1]

/-- The last thing that is put at a place is there. -/
theorem lookup_putAll_append (disk : Disk) {row : Location × Entry}
    {earlier later : List (Location × Entry)} (h : row.1 ∉ later.map Prod.fst) :
    (disk.putAll (earlier ++ row :: later)).entries.lookup row.1 = some row.2 := by
  rw [putAll, List.foldl_append]
  refine (lookup_putAll_of_notMem h).trans ?_
  simp only [put, lookup_putEntry, if_pos]

/-- What is put at a place is forgotten when something else is put there later. -/
theorem putAll_put {place : Location} {entry : Entry} {rows : List (Location × Entry)}
    (hrows : place ∈ rows.map Prod.fst) (hplace : place ∈ disk.entries.map Prod.fst) :
    (disk.put place entry).putAll rows = disk.putAll rows := by
  induction rows generalizing disk with
  | nil => cases hrows
  | cons row rows ih =>
    rw [putAll_cons, putAll_cons]
    by_cases hrow : place = row.1
    · simp only [hrow, put, putEntry_putEntry]
    · rw [List.map_cons, List.mem_cons] at hrows
      have hcomm : (disk.put place entry).put row.1 row.2 = (disk.put row.1 row.2).put place entry := by
        simp only [put, putEntry_comm hrow entry row.2 hplace]
      rw [hcomm]
      exact ih (hrows.resolve_left hrow) (mem_places_putEntry.mpr (.inr hplace))

theorem mem_places_putAll {place : Location} {rows : List (Location × Entry)} :
    place ∈ (disk.putAll rows).entries.map Prod.fst ↔
      place ∈ rows.map Prod.fst ∨ place ∈ disk.entries.map Prod.fst := by
  induction rows generalizing disk with
  | nil => simp [putAll]
  | cons row rows ih =>
    rw [putAll_cons, ih, put, mem_places_putEntry, List.map_cons, List.mem_cons, or_left_comm, or_assoc]

/-- Where the last thing for each place is there already, putting them all changes nothing. -/
theorem putAll_of_lookup {rows : List (Location × Entry)}
    (hplaces : ∀ place ∈ rows.map Prod.fst, place ∈ disk.entries.map Prod.fst)
    (hlast : ∀ earlier row later, rows = earlier ++ row :: later → row.1 ∉ later.map Prod.fst →
      disk.entries.lookup row.1 = some row.2) : disk.putAll rows = disk := by
  induction rows with
  | nil => rfl
  | cons row rows ih =>
    rw [List.map_cons, List.forall_mem_cons] at hplaces
    have hrows := ih hplaces.2 fun earlier other later hsplit =>
      hlast (row :: earlier) other later (by rw [hsplit]; rfl)
    rw [putAll_cons]
    by_cases hrow : row.1 ∈ rows.map Prod.fst
    · rw [putAll_put hrow hplaces.1, hrows]
    · have hput : disk.put row.1 row.2 = disk := by
        rw [put, putEntry_of_lookup (hlast [] row rows rfl hrow)]
      rw [hput, hrows]

/-- Putting things twice is putting them once. -/
theorem putAll_putAll (disk : Disk) (rows : List (Location × Entry)) :
    (disk.putAll rows).putAll rows = disk.putAll rows := by
  refine putAll_of_lookup (fun place hplace => mem_places_putAll.mpr (.inl hplace)) ?_
  intro earlier row later hsplit hlater
  rw [hsplit]
  exact disk.lookup_putAll_append hlater

end Disk

namespace Publication

open Disk

variable {disk later : Disk} {target : Path} {files : List (Path × String)}

/-! ### Writing things twice -/

/-- What files put where, on a disk on which their paths lead somewhere. -/
def rows (disk : Disk) (files : List (Path × String)) : List (Location × Entry) :=
  files.filterMap fun file => (disk.place? file.1).map fun place => (place, .file file.2.toUTF8)

theorem rows_of_keeps (keeps : KeepsDirectories disk later)
    (h : ∀ file ∈ files, ∃ place, disk.place? file.1 = some place) :
    rows later files = rows disk files := by
  refine List.filterMap_congr fun file hfile => ?_
  obtain ⟨place, hplace⟩ := h file hfile
  rw [hplace, place?_of_keeps keeps hplace]

/-- Files that are all written are put where their paths lead, then and ever after. -/
theorem disk_of_writeAll (h : (writeAll disk files).fault = none)
    (keeps : KeepsDirectories (writeAll disk files).disk later) :
    (writeAll disk files).disk = disk.putAll (rows later files) := by
  induction files generalizing disk with
  | nil => rfl
  | cons file files ih =>
    have hall := (keepsDirectories_writeAll h).trans keeps
    obtain ⟨place, hplace, -, hlater, hdisk⟩ := exists_put_of_writeAll h
    have hrow : rows later (file :: files) = (place, .file file.2.toUTF8) :: rows later files := by
      rw [rows, List.filterMap_cons, place?_of_keeps hall (place?_eq_some_iff.mpr hplace)]
      rfl
    rw [hdisk] at keeps ⊢
    rw [hrow, putAll_cons, ih hlater keeps]

/-- Files can be written when their paths lead to places where there are no directories. -/
theorem fault_writeAll (h : ∀ file ∈ files, ∃ place, disk.place? file.1 = some place ∧
    disk.entry? place ≠ some .directory) : (writeAll disk files).fault = none := by
  induction files generalizing disk with
  | nil => rfl
  | cons file files ih =>
    rw [List.forall_mem_cons] at h
    obtain ⟨⟨place, hplace, hentry⟩, hfiles⟩ := h
    have hwrite : disk.writeText file.1 file.2 = .ok (disk.put place (.file file.2.toUTF8)) :=
      writeText_eq_ok_iff.mpr ⟨place, place?_eq_some_iff.mp hplace, hentry, rfl⟩
    obtain ⟨path, text⟩ := file
    rw [writeAll, hwrite]
    refine ih fun other hother => ?_
    obtain ⟨place', hplace', hentry'⟩ := hfiles other hother
    refine ⟨place', place?_of_keeps (keepsDirectories_put hentry _) hplace', ?_⟩
    rw [entry?_put hentry]
    split_ifs <;> simp [hentry']

/-- Files that have been written can be written again, and this changes nothing. -/
theorem writeAll_again (h : (writeAll disk files).fault = none) :
    writeAll (writeAll disk files).disk files = writeAll disk files := by
  obtain ⟨left, hleft⟩ : ∃ left, (writeAll disk files).disk = left := ⟨_, rfl⟩
  have hplaces : ∀ file ∈ files, ∃ place, left.place? file.1 = some place ∧
      left.entry? place ≠ some .directory := by
    intro file hfile
    obtain ⟨place, hplace⟩ := exists_place_of_writeAll h file hfile
    obtain ⟨content, hentry⟩ := exists_file_of_writeAll h hfile hplace
    rw [hleft] at hplace hentry
    exact ⟨place, hplace, by simp [hentry]⟩
  have hagain := fault_writeAll hplaces
  have hrows : rows (writeAll left files).disk files = rows left files :=
    rows_of_keeps (keepsDirectories_writeAll hagain) fun file hfile =>
      (hplaces file hfile).imp fun _ => And.left
  have hfirst : left = disk.putAll (rows left files) := by
    rw [← disk_of_writeAll h (by rw [hleft]; exact .refl left), hleft]
  have hdisk : (writeAll left files).disk = left := by
    rw [disk_of_writeAll hagain (.refl _), hrows]
    calc left.putAll (rows left files)
        = (disk.putAll (rows left files)).putAll (rows left files) := by rw [← hfirst]
      _ = disk.putAll (rows left files) := putAll_putAll disk _
      _ = left := hfirst.symm
  rw [hleft, writeAll_eq hagain, hdisk, writeAll_eq h, hleft]

/-- Files that have been delivered can be delivered again, and this changes nothing. -/
theorem deliver_again (h : (deliver target files disk).fault = none) :
    deliver target files (deliver target files disk).disk = deliver target files disk := by
  obtain ⟨made, hmade, hdeliver⟩ := exists_made_of_deliver h
  rw [hdeliver] at h ⊢
  rw [deliver, makeDirectories_again hmade (keepsDirectories_writeAll h)]
  exact writeAll_again h

end Publication

/-- **Publishing again changes nothing.** When a publication ran without a fault, or any files were
delivered to its directory in place of its outputs, then doing the same on the disk that this left has the
same outcome: no fault, the same files and the same disk. -/
theorem publish_again (p : Publication) (disk : Disk) (publish : Disk → PublicationOutcome)
    (hpublish : publish = p.run ∨ ∃ files, publish = Publication.deliver p.target files)
    (h : (publish disk).fault = none) : publish (publish disk).disk = publish disk := by
  obtain hrun | ⟨files, hdeliver⟩ := hpublish
  · rw [hrun] at h ⊢
    obtain ⟨files, hplan, -, -⟩ := Publication.run_eq_deliver h
    rw [Publication.run_of_plan hplan] at h ⊢
    rw [Publication.run_of_plan hplan, Publication.deliver_again h]
  · rw [hdeliver] at h ⊢
    exact Publication.deliver_again h

/-- A disk with an old file in the place where both outputs of `astray` go. -/
def weathered : Disk where
  entries := [(["out"], .directory), (["out", "Model"], .directory),
    (["out", "Model", "Pet.json"], .file "old".toUTF8)]

/-- The model is written and replaced in both runs. -/
theorem weathered_again : (astray.run weathered).fault = none ∧
    (astray.run weathered).disk.place? ⟨"out/Model/Pet.json"⟩ =
      (astray.run weathered).disk.place? astray.basePath ∧
    astray.run (astray.run weathered).disk = astray.run weathered := by
  have hfault : (astray.run weathered).fault = none := by decide +kernel
  have hplace : (astray.run weathered).disk.place? ⟨"out/Model/Pet.json"⟩ =
      (astray.run weathered).disk.place? astray.basePath := by decide +kernel
  exact ⟨hfault, hplace, publish_again astray weathered astray.run (.inl rfl) hfault⟩

end SchemaCompiler
