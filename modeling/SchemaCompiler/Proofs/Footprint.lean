import SchemaCompiler.Proofs.Directory
import SchemaCompiler.Proofs.Overwriting

/-!
# How far a publication reaches

A publication that is carried out makes the directories that lead to its files and writes files, up to
the first that cannot be written. It changes nothing else, and it deletes nothing.

## What is proved

* `leaves_deliver`: when all files are written, each place holds the text of the last one whose path
  leads there, and otherwise what it held before, unless it is new and a directory on the way of the
  target.
* `delivery_accounted`: the same is true when a file cannot be written, with the files before it. When
  the directory cannot be made, no file is made or changed.
-/

namespace SchemaCompiler

namespace Publication

open Disk

variable {disk made : Disk} {target : Path} {files : List (Path × String)}

/-- A disk on which a directory has been made, if it was missing, and files have been written. -/
structure Leaves (target : Path) (files : List (Path × String)) (disk later : Disk) : Prop where
  /-- Relative paths start where they did. -/
  working : later.working = disk.working
  /-- The path of each file leads to a place, and there was no directory. -/
  written : ∀ file ∈ files, ∃ place, later.place? file.1 = some place ∧
    disk.entry? place ≠ some .directory
  /-- The last file whose path leads to a place is there. Where none leads, there is what was there
  before, and what is new is a directory on the way of the target. -/
  entry_iff : ∀ place entry, later.entry? place = some entry ↔
    match lastAt? later place files with
    | some file => entry = .file file.2.toUTF8
    | none => disk.entry? place = some entry ∨
        disk.entry? place = none ∧ entry = .directory ∧ later.Passes target place

/-- Writing files to a disk on which their directory has been made. -/
theorem leaves_writeAll (hmade : disk.makeDirectories target = (made, none))
    (h : (writeAll made files).fault = none) :
    Leaves target files disk (writeAll made files).disk := by
  have hgains := gains_makeDirectories hmade
  have hkeeps := keepsDirectories_writeAll h
  refine ⟨hkeeps.working.trans hgains.working, fun file hfile => ?_, fun place entry => ?_⟩
  · obtain ⟨place, hplace⟩ := exists_place_of_writeAll h file hfile
    refine ⟨place, hplace, fun hdir => ?_⟩
    -- a directory would still be one
    have hkept := hkeeps.directory place (hgains.kept place _ hdir)
    obtain ⟨content, hentry⟩ := exists_file_of_writeAll h hfile hplace
    rw [hentry] at hkept
    cases hkept
  · rw [entry?_writeAll h]
    cases hlast : lastAt? (writeAll made files).disk place files with
    | some file => simp [eq_comm]
    | none =>
      change made.entry? place = some entry ↔ (disk.entry? place = some entry ∨ _)
      constructor
      · intro hentry
        obtain hdisk | ⟨hdir, hpasses⟩ := hgains.gained place entry hentry
        · exact .inl hdisk
        · cases hbefore : disk.entry? place with
          | none => exact .inr ⟨rfl, hdir, hpasses.of_keeps hkeeps⟩
          | some before =>
            have hafter := hgains.kept place before hbefore
            exact .inl (hafter.symm.trans hentry)
      · rintro (hdisk | ⟨-, rfl, hpasses⟩)
        · exact hgains.kept place entry hdisk
        · -- the target leads to a directory by now, so all that it passes are directories
          have hagain := makeDirectories_again hmade hkeeps
          have hdir := directory_of_makeDirectories hagain hpasses
          rw [entry?_writeAll h, hlast] at hdir
          exact hdir

/-- Delivering files without a fault. -/
theorem leaves_deliver (h : (deliver target files disk).fault = none) :
    (deliver target files disk).files = files.map Prod.fst ∧
      Leaves target files disk (deliver target files disk).disk := by
  obtain ⟨made, hmade, hdeliver⟩ := exists_made_of_deliver h
  rw [hdeliver] at h ⊢
  exact ⟨files_of_writeAll h, leaves_writeAll hmade h⟩

/-- What a delivery leaves when its directory cannot be made, or one of its files cannot be written. -/
theorem leaves_of_fault {path : Path} {cause : FileFault}
    (h : (deliver target files disk).fault = some (.unwritable path cause)) :
    (path = target ∧ (disk.makeDirectories target).2 = some cause ∧
      (deliver target files disk).files = [] ∧
      GainsDirectories disk (deliver target files disk).disk target) ∨
    ∃ earlier file later, files = earlier ++ file :: later ∧ path = file.1 ∧
      (disk.makeDirectories target).2 = none ∧
      (deliver target files disk).files = earlier.map Prod.fst ∧
      Leaves target earlier disk (deliver target files disk).disk ∧
      (deliver target files disk).disk.writeText file.1 file.2 = .error cause := by
  obtain ⟨made, cause', hmade, hdeliver⟩ | ⟨made, hmade, hdeliver⟩ := deliver_cases target files disk
  · rw [hdeliver] at h ⊢
    simp only [Option.some.injEq, PublicationFault.unwritable.injEq] at h
    obtain ⟨rfl, rfl⟩ := h
    exact .inl ⟨rfl, by rw [hmade], rfl, gains_makeDirectories hmade⟩
  · rw [hdeliver] at h ⊢
    obtain ⟨earlier, file, later, cause', hsplit, hearlier, hwrite, heq⟩ := exists_split_of_writeAll h
    rw [heq] at h ⊢
    simp only [Option.some.injEq, PublicationFault.unwritable.injEq] at h
    obtain ⟨rfl, rfl⟩ := h
    exact .inr ⟨earlier, file, later, hsplit, rfl, by rw [hmade], rfl,
      leaves_writeAll hmade hearlier, hwrite⟩

end Publication

/-- **The reach of a publication.** Let a publication run, with `files` as its outputs if it has any, or let
any files be delivered to its directory in their place. If a file cannot be written, then the directories
that lead to the target are there and the files before it have been written in their order; if the
directory itself cannot be made, then every file is as it was, and only directories that lead to the target
may be new; if there is no fault, then all files have been written. Everything else on the disk is as it
was. -/
theorem delivery_accounted (p : Publication) (disk : Disk) (files : List (Path × String))
    (outcome : PublicationOutcome)
    (h : (∀ outputs, p.outputs = .ok outputs → outputs = files) ∧ outcome = p.run disk ∨
      outcome = Publication.deliver p.target files disk) :
    (∀ path cause, outcome.fault = some (.unwritable path cause) →
      (path = p.target ∧ (disk.makeDirectories p.target).2 = some cause ∧ outcome.files = [] ∧
        Disk.GainsDirectories disk outcome.disk p.target ∧
        ∀ place content, outcome.disk.entry? place = some (.file content) ↔
          disk.entry? place = some (.file content)) ∨
      ∃ earlier file later, files = earlier ++ file :: later ∧ path = file.1 ∧
        (disk.makeDirectories p.target).2 = none ∧ outcome.files = earlier.map Prod.fst ∧
        Publication.Leaves p.target earlier disk outcome.disk ∧
        outcome.disk.writeText file.1 file.2 = .error cause) ∧
    (outcome.fault = none → outcome.files = files.map Prod.fst ∧
      Publication.Leaves p.target files disk outcome.disk) := by
  have hdeliver : outcome = Publication.deliver p.target files disk ∨
      ∃ fault, outcome.fault = some fault ∧ ∀ path cause, fault ≠ .unwritable path cause := by
    obtain ⟨hfiles, houtcome⟩ | houtcome := h
    · obtain ⟨fault, hplan, hrun⟩ | ⟨outputs, -, houtputs, hrun⟩ := p.run_cases disk
      · exact .inr ⟨fault, by rw [houtcome, hrun], Publication.ne_unwritable_of_plan hplan⟩
      · exact .inl (by rw [houtcome, hrun, hfiles outputs houtputs])
    · exact .inl houtcome
  obtain hdeliver | ⟨fault, hfault, hplanned⟩ := hdeliver
  · rw [hdeliver]
    refine ⟨fun path cause hfault => ?_, Publication.leaves_deliver⟩
    obtain ⟨hpath, hcause, hfiles, hgains⟩ | hfile := Publication.leaves_of_fault hfault
    · exact .inl ⟨hpath, hcause, hfiles, hgains, hgains.file_iff⟩
    · exact .inr hfile
  · simp [hfault, hplanned]

/-- Models whose files are to replace what a disk holds. -/
def halfway : Publication where
  dir := ⟨"out"⟩
  settings := {}
  emitter := .outline
  models := ["Box", "Door", "Lid"].map fun name =>
    { name, scope := "Model", parent := none, description := none, properties := [] }

/-- A disk with an old file in the place of a new one, a file that nothing replaces, and a directory in
the way. -/
def cluttered : Disk where
  entries := [(["out"], .directory), (["out", "Model"], .directory),
    (["out", "Model", "Box.txt"], .file "old".toUTF8), (["out", "Model", "Hinge.txt"], .file "kept".toUTF8),
    (["out", "Model", "Door.txt"], .directory)]

/-- The file before the directory in the way has been written, and nothing else has changed. -/
theorem cluttered_accounted :
    (halfway.run cluttered).fault = some (.unwritable ⟨"out/Model/Door.txt"⟩ .isDirectory) ∧
    ∃ earlier file later, halfway.outputs = .ok (earlier ++ file :: later) ∧
      earlier.map Prod.fst = [⟨"out/Model/Box.txt"⟩] ∧ file.1 = ⟨"out/Model/Door.txt"⟩ ∧
      Publication.Leaves halfway.target earlier cluttered (halfway.run cluttered).disk := by
  have hfault : (halfway.run cluttered).fault =
      some (.unwritable ⟨"out/Model/Door.txt"⟩ .isDirectory) := by decide +kernel
  have hfiles : (halfway.run cluttered).files = [⟨"out/Model/Box.txt"⟩] := by decide +kernel
  have hpath : (⟨"out/Model/Door.txt"⟩ : Path) ≠ halfway.target := by decide +kernel
  obtain ⟨outputs, houtputs⟩ := Publication.renders_iff.mp
    (Publication.renders_of_total (p := halfway) Emitter.total_outline)
  have hall (other : List (Path × String)) (hother : halfway.outputs = .ok other) : other = outputs :=
    Except.ok.inj (hother.symm.trans houtputs)
  obtain ⟨hstopped, -⟩ := delivery_accounted halfway cluttered outputs _ (.inl ⟨hall, rfl⟩)
  obtain ⟨heq, -⟩ | ⟨earlier, file, later, rfl, hfile, -, hearlier, hleaves, -⟩ :=
    hstopped _ _ hfault
  · exact absurd heq hpath
  · exact ⟨hfault, earlier, file, later, houtputs, hearlier.symm.trans hfiles, hfile.symm, hleaves⟩

end SchemaCompiler
