import SchemaCompiler.Proofs.Collision
import SchemaCompiler.Proofs.Disk

/-!
# What a publication leaves on a disk

The files of a publication are told apart by the spelling of their paths, but they are written to the
places that the paths lead to. Where two outputs lead to one place the later one is what is left, and
the earlier one is lost without a fault.

## What is proved

* `entry?_writeAll`: after files have been written, a place holds the text of the last file whose path
  leads there, and what it held before when there is none.
* `outputs_read_back_iff`: a run that ends without a fault leaves all its outputs exactly when no two
  with different texts lead to one place. File names that consist of ordinary components see to it,
  whatever the directory, the namespace and the disk.
* `astray_overwritten`: a base type whose name climbs out of the directory and comes back into it
  replaces a model.
-/

namespace SchemaCompiler

namespace Disk

variable {disk later : Disk}

/-- The place that a path leads to, if it leads to one. -/
def place? (disk : Disk) (path : Path) : Option Location :=
  (disk.locate path).toOption

theorem place?_eq_some_iff {path : Path} {place : Location} :
    disk.place? path = some place ↔ disk.locate path = .ok place := by
  rw [place?]
  cases disk.locate path <;> simp [Except.toOption]

theorem place?_of_keeps (keeps : KeepsDirectories disk later) {path : Path} {place : Location}
    (h : disk.place? path = some place) : later.place? path = some place := by
  rw [place?_eq_some_iff] at h ⊢
  exact locate_of_keeps keeps h

/-- What is read depends on the place alone. -/
theorem readText_eq_of_place? {a b : Path} {place : Location} (ha : disk.place? a = some place)
    (hb : disk.place? b = some place) : disk.readText a = disk.readText b := by
  rw [place?_eq_some_iff] at ha hb
  rw [readText, readText, readBytes, readBytes, ha, hb]

end Disk

namespace Publication

open Disk

variable {p : Publication} {disk : Disk} {files : List (Path × String)}

/-! ### Writing files one after another -/

/-- The first file is put at the place that its path leads to, and the others are written on. -/
theorem exists_put_of_writeAll {file : Path × String}
    (h : (writeAll disk (file :: files)).fault = none) :
    ∃ place, disk.locate file.1 = .ok place ∧ disk.entry? place ≠ some .directory ∧
      (writeAll (disk.put place (.file file.2.toUTF8)) files).fault = none ∧
      (writeAll disk (file :: files)).disk =
        (writeAll (disk.put place (.file file.2.toUTF8)) files).disk := by
  obtain ⟨next, hwrite, hlater, heq⟩ := exists_writeText_of_writeAll h
  obtain ⟨place, hplace, hentry, rfl⟩ := writeText_eq_ok_iff.mp hwrite
  exact ⟨place, hplace, hentry, hlater, by rw [heq]⟩

theorem keepsDirectories_writeAll (h : (writeAll disk files).fault = none) :
    KeepsDirectories disk (writeAll disk files).disk := by
  induction files generalizing disk with
  | nil => exact .refl disk
  | cons file files ih =>
    obtain ⟨place, -, hentry, hlater, hdisk⟩ := exists_put_of_writeAll h
    rw [hdisk]
    exact (keepsDirectories_put hentry _).trans (ih hlater)

/-- Afterwards the path of each file that was written leads to a place. -/
theorem exists_place_of_writeAll (h : (writeAll disk files).fault = none) :
    ∀ file ∈ files, ∃ place, (writeAll disk files).disk.place? file.1 = some place := by
  induction files generalizing disk with
  | nil => simp
  | cons file files ih =>
    have hkeeps := keepsDirectories_writeAll h
    obtain ⟨place, hplace, -, hlater, hdisk⟩ := exists_put_of_writeAll h
    rw [List.forall_mem_cons]
    refine ⟨⟨place, place?_of_keeps hkeeps (place?_eq_some_iff.mpr hplace)⟩, ?_⟩
    rw [hdisk]
    exact ih hlater

/-- The last of some files whose path leads to a place. -/
def lastAt? (disk : Disk) (place : Location) (files : List (Path × String)) : Option (Path × String) :=
  files.reverse.find? fun file => disk.place? file.1 = some place

theorem lastAt?_cons (disk : Disk) (place : Location) (file : Path × String)
    (files : List (Path × String)) : lastAt? disk place (file :: files) =
      match lastAt? disk place files with
      | some later => some later
      | none => if disk.place? file.1 = some place then some file else none := by
  rw [lastAt?, lastAt?, List.reverse_cons, List.find?_append]
  cases files.reverse.find? _ with
  | some later => rfl
  | none => by_cases hfile : disk.place? file.1 = some place <;> simp [hfile]

theorem lastAt?_eq_none_iff {place : Location} :
    lastAt? disk place files = none ↔ ∀ file ∈ files, disk.place? file.1 ≠ some place := by
  simp [lastAt?, List.find?_eq_none]

/-- Afterwards a place holds the text of the last file that leads there, and what it held before when
there is none. -/
theorem entry?_writeAll (h : (writeAll disk files).fault = none) (place : Location) :
    entry? (writeAll disk files).disk place =
      match lastAt? (writeAll disk files).disk place files with
      | some file => some (.file file.2.toUTF8)
      | none => disk.entry? place := by
  induction files generalizing disk with
  | nil => rfl
  | cons file files ih =>
    have hkeeps := keepsDirectories_writeAll h
    obtain ⟨own, hown, hentry, hlater, hdisk⟩ := exists_put_of_writeAll h
    have hplace := place?_of_keeps hkeeps (place?_eq_some_iff.mpr hown)
    rw [hdisk] at hplace ⊢
    rw [ih hlater, lastAt?_cons, hplace]
    cases lastAt? _ place files with
    | some later => rfl
    | none =>
      rw [entry?_put hentry]
      by_cases hsame : place = own
      · rw [if_pos hsame, if_pos (congrArg some hsame.symm)]
      · rw [if_neg hsame, if_neg fun h => hsame (Option.some.inj h).symm]

/-- Afterwards there is a file where the path of a file that was written leads. -/
theorem exists_file_of_writeAll (h : (writeAll disk files).fault = none) {file : Path × String}
    (hfile : file ∈ files) {place : Location}
    (hplace : (writeAll disk files).disk.place? file.1 = some place) :
    ∃ content, entry? (writeAll disk files).disk place = some (.file content) := by
  have hentry := entry?_writeAll h place
  cases hlast : lastAt? (writeAll disk files).disk place files with
  | none => exact absurd hplace (lastAt?_eq_none_iff.mp hlast file hfile)
  | some last =>
    rw [hlast] at hentry
    exact ⟨_, hentry⟩

/-- A file that was written is read back as the last one that was written to its place. -/
theorem readText_writeAll (h : (writeAll disk files).fault = none) {file : Path × String}
    (hfile : file ∈ files) :
    ∃ earlier last later, files = earlier ++ last :: later ∧
      (writeAll disk files).disk.place? last.1 = (writeAll disk files).disk.place? file.1 ∧
      (∀ other ∈ later,
        (writeAll disk files).disk.place? other.1 ≠ (writeAll disk files).disk.place? file.1) ∧
      (writeAll disk files).disk.readText file.1 = .ok last.2 := by
  obtain ⟨place, hplace⟩ := exists_place_of_writeAll h file hfile
  have hentry := entry?_writeAll h place
  cases hlast : lastAt? (writeAll disk files).disk place files with
  | none =>
    -- the file itself leads to the place
    exact absurd hplace (lastAt?_eq_none_iff.mp hlast file hfile)
  | some last =>
    rw [hlast] at hentry
    rw [lastAt?, find?_reverse_eq_some_iff] at hlast
    obtain ⟨hsame, earlier, later, hsplit, hnone⟩ := hlast
    refine ⟨earlier, last, later, hsplit, ?_, fun other hother => ?_, ?_⟩
    · rw [hplace, of_decide_eq_true hsame]
    · rw [hplace]
      exact of_decide_eq_false (hnone other hother)
    · exact readText_eq_ok_iff.mpr ⟨place, place?_eq_some_iff.mp hplace, hentry⟩

/-- Files that were written are all read back exactly when none that lead to one place differ. -/
theorem readText_writeAll_iff (h : (writeAll disk files).fault = none) :
    (∀ file ∈ files, (writeAll disk files).disk.readText file.1 = .ok file.2) ↔
      ∀ a ∈ files, ∀ b ∈ files,
        (writeAll disk files).disk.place? a.1 = (writeAll disk files).disk.place? b.1 →
          a.2 = b.2 := by
  constructor
  · intro hread a ha b hb hsame
    obtain ⟨place, hplace⟩ := exists_place_of_writeAll h a ha
    have hboth := readText_eq_of_place? hplace (hsame.symm.trans hplace)
    rw [hread a ha, hread b hb] at hboth
    exact Except.ok.inj hboth
  · intro hagree file hfile
    obtain ⟨earlier, last, later, hsplit, hsame, -, hread⟩ := readText_writeAll h hfile
    have hlast : last ∈ files := by
      rw [hsplit]
      exact List.mem_append_right _ List.mem_cons_self
    rw [hread, hagree last hlast file hfile hsame]

/-! ### Outputs -/

/-- The name of the file of a type. -/
def fileName (p : Publication) (name : String) : Path :=
  ⟨name ++ "." ++ p.emitter.extension⟩

/-- Without a slash in the name of the type its file has a name. -/
theorem isName_fileName (p : Publication) (hextension : Path.IsExtension p.emitter.extension)
    {name : String} (h : '/' ∉ name.toList) : Path.IsName (p.fileName name).text :=
  (Path.isExtension_iff _).mp hextension name h

theorem ordinary_fileName (p : Publication) (hextension : Path.IsExtension p.emitter.extension)
    {name : String} (h : '/' ∉ name.toList) : (p.fileName name).Ordinary :=
  Path.ordinary_of_isName (p.isName_fileName hextension h)

/-- The file of the base type is written last, and so it is always left with its text. -/
theorem readText_basePath (h : (p.run disk).fault = none) :
    ∃ text, p.emitter.emitBase p.settings = .ok text ∧
      (p.run disk).disk.readText p.basePath = .ok text := by
  obtain ⟨files, made, -, houtputs, hrun⟩ := exists_writeAll_of_run h
  obtain ⟨models, base, -, hbase, rfl⟩ := outputs_eq_ok_iff.mp houtputs
  obtain ⟨hpath, htext⟩ := baseOutput_eq_ok_iff.mp hbase
  rw [hrun] at h ⊢
  have hmem : base ∈ models ++ [base] := List.mem_append_right _ (List.mem_singleton.mpr rfl)
  obtain ⟨earlier, last, later, hsplit, -, hlater, hread⟩ := readText_writeAll h hmem
  have hend : (last :: later).getLast? = some base := by
    rw [← List.getLast?_append_of_ne_nil earlier (List.cons_ne_nil last later), ← hsplit,
      List.getLast?_concat]
  refine ⟨base.2, htext, ?_⟩
  rw [← hpath]
  obtain rfl | hbase := List.mem_cons.mp (List.mem_of_getLast? hend)
  · exact hread
  · exact absurd rfl (hlater base hbase)

/-- No two outputs of a plan have paths with the same components. -/
theorem nodup_components_of_plan (h : p.plan = .ok files) :
    (files.map fun file => file.1.components).Nodup := by
  have hclaims := (exists_plan_eq_ok_iff.mp ⟨files, h⟩).1
  rw [Path.Distinct, claims] at hclaims
  have hperm : (files.map Prod.fst).Perm (p.basePath :: p.pathsOf p.models) := by
    rw [paths_of_outputs (outputs_of_plan h)]
    exact List.perm_append_singleton _ _
  have hnodup := (hperm.map Path.components).nodup_iff.mpr hclaims
  rwa [List.map_map] at hnodup

theorem exists_name_of_mem_outputs (h : p.outputs = .ok files) {file : Path × String}
    (hfile : file ∈ files) : ∃ name ∈ p.settings.baseType :: p.models.map Model.name,
      file.1 = p.target.join (p.fileName name).text := by
  have hpath := List.mem_map_of_mem (f := Prod.fst) hfile
  rw [paths_of_outputs h, List.mem_append, List.mem_singleton, pathsOf, List.mem_map] at hpath
  obtain ⟨model, hmodel, hpath⟩ | hpath := hpath
  · exact ⟨model.name, List.mem_cons_of_mem _ (List.mem_map_of_mem hmodel), hpath.symm⟩
  · exact ⟨p.settings.baseType, List.mem_cons_self, hpath⟩

/-- Outputs with ordinary file names are apart: only one leads to a place, on any disk. -/
theorem eq_of_place?_eq (hplan : p.plan = .ok files)
    (hordinary : ∀ name ∈ p.settings.baseType :: p.models.map Model.name, (p.fileName name).Ordinary)
    {a b : Path × String} (ha : a ∈ files) (hb : b ∈ files) {place : Location}
    (hplace : disk.place? a.1 = some place) (hplace' : disk.place? b.1 = some place) : a = b := by
  have houtputs := outputs_of_plan hplan
  obtain ⟨name, hname, hpath⟩ := exists_name_of_mem_outputs houtputs ha
  obtain ⟨name', hname', hpath'⟩ := exists_name_of_mem_outputs houtputs hb
  refine List.inj_on_of_nodup_map (nodup_components_of_plan hplan) ha hb ?_
  rw [place?_eq_some_iff] at hplace hplace'
  rw [hpath] at hplace ⊢
  rw [hpath'] at hplace' ⊢
  exact components_join_eq (hordinary name hname) (hordinary name' hname') hplace hplace'

end Publication

/-- **Overwriting.** When a run ends without a fault, every output has a text, and reading any of its files
gives the text of the last output whose path leads to the same place. So every output is left with its own
text exactly when no two that lead to one place have different texts, and always when the file names of
the base type and of the models consist of ordinary components. -/
theorem outputs_read_back_iff (p : Publication) (disk : Disk) (h : (p.run disk).fault = none) :
    ∃ outputs, p.outputs = .ok outputs ∧ (p.run disk).files = outputs.map Prod.fst ∧
    (∀ output ∈ outputs, ∃ earlier last later, outputs = earlier ++ last :: later ∧
      (p.run disk).disk.place? last.1 = (p.run disk).disk.place? output.1 ∧
      (∀ other ∈ later, (p.run disk).disk.place? other.1 ≠ (p.run disk).disk.place? output.1) ∧
      (p.run disk).disk.readText output.1 = .ok last.2) ∧
    ((∀ output ∈ outputs, (p.run disk).disk.readText output.1 = .ok output.2) ↔
      ∀ a ∈ outputs, ∀ b ∈ outputs,
        (p.run disk).disk.place? a.1 = (p.run disk).disk.place? b.1 → a.2 = b.2) ∧
    ((∀ name ∈ p.settings.baseType :: p.models.map Model.name, (p.fileName name).Ordinary) →
      ∀ output ∈ outputs, (p.run disk).disk.readText output.1 = .ok output.2) := by
  obtain ⟨outputs, made, hplan, houtputs, hrun⟩ := Publication.exists_writeAll_of_run h
  have hfiles := Publication.files_of_run h
  rw [hrun] at h hfiles ⊢
  have hiff := Publication.readText_writeAll_iff h
  refine ⟨outputs, houtputs, by rw [hfiles, Publication.paths_of_outputs houtputs],
    fun output => Publication.readText_writeAll h, hiff, fun hordinary => hiff.mpr fun a ha b hb hsame => ?_⟩
  obtain ⟨place, hplace⟩ := Publication.exists_place_of_writeAll h a ha
  rw [Publication.eq_of_place?_eq hplan hordinary ha hb hplace (hsame.symm.trans hplace)]

/-- Types whose names would mean something between slashes. -/
def dotted : Publication where
  dir := ⟨"out"⟩
  settings := { baseType := "" }
  emitter := .json
  models := [".", ".."].map fun name =>
    { name, scope := "Model", parent := none, description := none, properties := [] }

/-- Each has a file of its own. -/
theorem dotted_read_back : (dotted.run {}).fault = none ∧ ∃ outputs, dotted.outputs = .ok outputs ∧
    ∀ output ∈ outputs, (dotted.run {}).disk.readText output.1 = .ok output.2 := by
  have hfault : (dotted.run {}).fault = none := by decide +kernel
  have hextension : Path.IsExtension dotted.emitter.extension := by decide
  have hslash : ∀ name ∈ dotted.settings.baseType :: dotted.models.map Model.name,
      '/' ∉ name.toList := by decide
  obtain ⟨outputs, houtputs, -, -, -, hread⟩ := outputs_read_back_iff dotted {} hfault
  exact ⟨hfault, outputs, houtputs,
    hread fun name hname => dotted.ordinary_fileName hextension (hslash name hname)⟩

/-- A model, and a base type whose name leads out of the directory and back to the file of the model. -/
def astray : Publication where
  dir := ⟨"out"⟩
  settings := { baseType := "../Model/Pet" }
  emitter := .json
  models := [{ name := "Pet", scope := "Model", parent := none, description := none, properties := [] }]

/-- The run has no fault, and the file of the model holds the text of the base type, which is another. -/
theorem astray_overwritten : (astray.run {}).fault = none ∧
    (astray.run {}).files = [⟨"out/Model/Pet.json"⟩, ⟨"out/Model/../Model/Pet.json"⟩] ∧
    ∃ base text, astray.emitter.emitBase astray.settings = .ok base ∧
      astray.emitter.emitModel astray.settings astray.models[0] = .ok text ∧ base ≠ text ∧
      (astray.run {}).disk.readText ⟨"out/Model/Pet.json"⟩ = .ok base := by
  have hfault : (astray.run {}).fault = none := by decide +kernel
  have hplace : (astray.run {}).disk.place? ⟨"out/Model/Pet.json"⟩ =
      some ["out", "Model", "Pet.json"] := by decide +kernel
  have hplace' : (astray.run {}).disk.place? astray.basePath = some ["out", "Model", "Pet.json"] := by
    decide +kernel
  obtain ⟨base, hbase, hread⟩ := Publication.readText_basePath hfault
  have htext : astray.settings.baseDescriptor.pretty ≠
      (astray.models[0].descriptor astray.settings).pretty := by decide +kernel
  refine ⟨hfault, Publication.files_of_run hfault, base, _, hbase, rfl, ?_, ?_⟩
  · obtain rfl : astray.settings.baseDescriptor.pretty = base := Except.ok.inj hbase
    exact htext
  · rw [Disk.readText_eq_of_place? hplace hplace', hread]

end SchemaCompiler
