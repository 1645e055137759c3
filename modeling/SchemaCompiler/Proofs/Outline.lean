import SchemaCompiler.Emission.Outline
import SchemaCompiler.Proofs.Pieces

/-!
# Descriptions in outlines

The pieces of an outline are joined by line feeds, and names and documented types may hold line feeds
themselves, so the rows of the text are not its pieces. But the rows of joined pieces are the rows of the
pieces, and a line of a description is one row, because it has no line feed.

## What is proved

* `linesOf_eq_breakLines` — the lines of a text are what stands between its line feeds, without the
  carriage return in front of one and without an empty rest behind the last one.
* `rows_ofModel` — a description adds one comment for each of its lines to the rows of an outline, behind
  the header or at the start of the block of its property.
* `descriptions_confined` — and it does nothing else. Without comments, the outline of a model is that of
  the model without descriptions.
-/

namespace SchemaCompiler

/-! ### Lines -/

namespace Text

/-- A row without the carriage return at its end. -/
def withoutReturn (row : List Char) : List Char :=
  if row.getLast? = some '\r' then row.dropLast else row

/-- What stands between the line feeds of a text: a row that ends in a line feed loses a carriage return
before it, and the last row counts only if there is anything in it. -/
def breakLines (cs : List Char) : List (List Char) :=
  let rows := cs.splitOn '\n'
  rows.dropLast.map withoutReturn ++ (rows.getLast?.filter (!·.isEmpty)).toList

example : breakLines ['a', '\r', '\n', '\r', '\n', 'b', '\r'] = [['a'], [], ['b', '\r']] := by decide

theorem breakLines_of_notMem {row : List Char} (h : '\n' ∉ row) :
    breakLines row = if row = [] then [] else [row] := by
  rw [breakLines, List.splitOn_eq_singleton h]
  split_ifs with hrow <;> simp [hrow]

theorem breakLines_append_feed {row : List Char} (h : '\n' ∉ row) (back : List Char) :
    breakLines (row ++ '\n' :: back) = withoutReturn row :: breakLines back := by
  have hne := List.splitOn_ne_nil '\n' back
  rw [breakLines, List.splitOn_append_cons_self_of_not_mem h]
  simp only [List.dropLast_cons_of_ne_nil hne, List.getLast?_cons_of_ne_nil hne]
  rfl

theorem withoutReturn_cons {c : Char} {row : List Char} (h : c ≠ '\r' ∨ row ≠ []) :
    withoutReturn (c :: row) = c :: withoutReturn row := by
  cases row with
  | nil => simpa [withoutReturn] using h
  | cons d row =>
    rw [withoutReturn, withoutReturn, List.getLast?_cons_cons, List.dropLast_cons_cons]
    split_ifs <;> rfl

/-- A character that breaks no line belongs to the first line of what is behind it. -/
theorem linesOf_cons {c : Char} {rest : List Char} (hfeed : c ≠ '\n')
    (hreturn : c ≠ '\r' ∨ rest.head? ≠ some '\n') :
    linesOf (c :: rest) =
      match linesOf rest with
      | [] => [[c]]
      | line :: later => (c :: line) :: later := by
  have hbreak : ∀ back, c = '\r' → rest = '\n' :: back → False := by
    rintro back rfl rfl
    simp at hreturn
  cases rest with
  | nil => simp [linesOf]
  | cons d rest =>
    cases hlines : linesOf (d :: rest) <;> simp [linesOf, hlines]

theorem linesOf_of_notMem {row : List Char} (h : '\n' ∉ row) :
    linesOf row = if row = [] then [] else [row] := by
  induction row with
  | nil => rfl
  | cons c row ih =>
    rw [List.mem_cons, not_or] at h
    have hhead : row.head? ≠ some '\n' := fun hhead => h.2 (List.mem_of_mem_head? hhead)
    rw [linesOf_cons (Ne.symm h.1) (.inr hhead), ih h.2]
    cases row <;> rfl

theorem linesOf_append_feed {row : List Char} (h : '\n' ∉ row) (back : List Char) :
    linesOf (row ++ '\n' :: back) = withoutReturn row :: linesOf back := by
  induction row with
  | nil => rfl
  | cons c row ih =>
    rw [List.mem_cons, not_or] at h
    by_cases hlast : c = '\r' ∧ row = []
    · obtain ⟨rfl, rfl⟩ := hlast
      rfl
    · rw [not_and_or] at hlast
      have hreturn : c ≠ '\r' ∨ (row ++ '\n' :: back).head? ≠ some '\n' := by
        refine hlast.imp id fun hne => ?_
        rw [List.head?_append_of_ne_nil _ hne]
        exact fun hhead => h.2 (List.mem_of_mem_head? hhead)
      rw [List.cons_append, linesOf_cons (Ne.symm h.1) hreturn, ih h.2, withoutReturn_cons hlast]

theorem notMem_of_forall_beq {separator : Char} {piece : List Char}
    (h : ∀ c ∈ piece, (c == separator) = false) : separator ∉ piece := by
  intro hmem
  simpa using h separator hmem

/-- The lines of a text are what stands between its line feeds. -/
theorem linesOf_eq_breakLines (cs : List Char) : linesOf cs = breakLines cs := by
  induction cs using Pieces.piecewise_induction (· == '\n') with
  | last row h =>
    have hrow := notMem_of_forall_beq h
    rw [linesOf_of_notMem hrow, breakLines_of_notMem hrow]
  | more row c back h hc ih =>
    obtain rfl : c = '\n' := beq_iff_eq.mp hc
    have hrow := notMem_of_forall_beq h
    rw [linesOf_append_feed hrow, breakLines_append_feed hrow, ih]

/-- No line holds a line feed. -/
theorem feed_notMem_of_mem_linesOf {cs line : List Char} (h : line ∈ linesOf cs) : '\n' ∉ line := by
  induction cs using Pieces.piecewise_induction (· == '\n') with
  | last row hrow =>
    rw [linesOf_of_notMem (notMem_of_forall_beq hrow)] at h
    split_ifs at h
    · cases h
    · rw [List.mem_singleton.mp h]
      exact notMem_of_forall_beq hrow
  | more row c back hrow hc ih =>
    obtain rfl : c = '\n' := beq_iff_eq.mp hc
    rw [linesOf_append_feed (notMem_of_forall_beq hrow), List.mem_cons] at h
    obtain rfl | h := h
    · rw [withoutReturn]
      split_ifs
      · exact fun hmem => notMem_of_forall_beq hrow ((List.dropLast_sublist row).mem hmem)
      · exact notMem_of_forall_beq hrow
    · exact ih h

/-! ### Rows -/

/-- The rows of a text: what stands between its line feeds, as it is. -/
def rows (text : String) : List String :=
  (text.toList.splitOn '\n').map .ofList

theorem rows_of_notMem {text : String} (h : '\n' ∉ text.toList) : rows text = [text] := by
  rw [rows, List.splitOn_eq_singleton h, List.map_singleton, String.ofList_toList]

/-- The rows of joined pieces are the rows of the pieces. -/
theorem rows_intercalate {pieces : List String} (h : pieces ≠ []) :
    rows ("\n".intercalate pieces) = pieces.flatMap rows := by
  have hchars : pieces.map String.toList ≠ [] := by simpa using h
  rw [rows, String.toList_intercalate]
  change (List.splitOn '\n' (['\n'].intercalate (pieces.map String.toList))).map String.ofList = _
  rw [Pieces.splitOn_intercalate_eq_flatMap '\n' hchars, List.flatMap_map, List.map_flatMap]
  rfl

end Text

namespace Outline

open Text

/-! ### Comments -/

/-- Whether a row is a comment, as descriptions are written. -/
def isComment (row : String) : Bool :=
  row.startsWith "  # "

/-- The comments of a description, one for each line. -/
def comments (description : String) : List String :=
  (breakLines description.toList).map fun line => "  # " ++ .ofList line

/-- A text without its comments. -/
def withoutComments (text : String) : String :=
  "\n".intercalate ((rows text).filter (!isComment ·))

theorem isComment_of_mem_comments {description comment : String} (h : comment ∈ comments description) :
    isComment comment = true := by
  obtain ⟨line, -, rfl⟩ := List.mem_map.mp h
  rw [isComment, String.startsWith_string_iff, String.toList_append]
  exact List.prefix_append _ _

theorem filter_comments (description : String) : (comments description).filter (!isComment ·) = [] := by
  rw [List.filter_eq_nil_iff]
  intro comment h
  simp [isComment_of_mem_comments h]

/-- A comment is one row. -/
theorem flatMap_rows_comments (description : String) :
    (comments description).flatMap rows = comments description := by
  have hrows : ∀ comment ∈ comments description, rows comment = [comment] := by
    intro comment h
    obtain ⟨line, hline, rfl⟩ := List.mem_map.mp h
    rw [← linesOf_eq_breakLines] at hline
    refine rows_of_notMem ?_
    rw [String.toList_append, String.toList_ofList, List.mem_append, not_or]
    exact ⟨by decide, by simpa using feed_notMem_of_mem_linesOf hline⟩
  rw [List.flatMap_congr hrows, List.flatMap_singleton']

theorem descriptionLines_eq (description : Option String) :
    descriptionLines description = description.toList.flatMap comments := by
  cases description with
  | none => rfl
  | some description =>
    rw [descriptionLines, Text.lines, linesOf_eq_breakLines, List.map_map]
    simp [comments, Function.comp_def]

theorem flatMap_rows_descriptionLines (description : Option String) :
    (descriptionLines description).flatMap rows = description.toList.flatMap comments := by
  rw [descriptionLines_eq]
  cases description with
  | none => rfl
  | some description => simpa using flatMap_rows_comments description

/-! ### Outlines -/

/-- The rows of the block of a property. -/
def blockRows (property : PropertyDescriptor) : List String :=
  "" :: property.description.toList.flatMap comments ++ (propertyLines property).flatMap rows

theorem flatMap_rows_propertyBlock (property : PropertyDescriptor) :
    (propertyBlock property).flatMap rows = blockRows property := by
  rw [propertyBlock, List.cons_append, List.flatMap_cons, List.flatMap_append,
    flatMap_rows_descriptionLines]
  rfl

/-- The rows of an outline: the header, the comments of the model, the blocks of the properties, each with
its comments in front, and an empty row. -/
theorem rows_ofModel (settings : Settings) (model : Model) :
    rows (ofModel settings model) =
      (header settings model).flatMap rows ++ model.description.toList.flatMap comments ++
        model.properties.flatMap blockRows ++ [""] := by
  have hne : pieces settings model ≠ [] := by simp [pieces]
  rw [ofModel, rows_intercalate hne, pieces, List.flatMap_append, List.flatMap_append,
    List.flatMap_append, flatMap_rows_descriptionLines, List.flatMap_assoc,
    List.flatMap_congr fun property _ => flatMap_rows_propertyBlock property]
  rfl

/-- A property without its description. -/
def undescribedProperty (property : PropertyDescriptor) : PropertyDescriptor :=
  { property with description := none }

/-- A model without its description and those of its properties. -/
def undescribed (model : Model) : Model :=
  { model with description := none, properties := model.properties.map undescribedProperty }

theorem filter_description (description : Option String) :
    (description.toList.flatMap comments).filter (!isComment ·) = [] := by
  cases description with
  | none => rfl
  | some description => simpa using filter_comments description

/-- What is no comment in a block does not depend on the description. -/
theorem filter_blockRows_undescribed (property : PropertyDescriptor) :
    (blockRows (undescribedProperty property)).filter (!isComment ·) =
      (blockRows property).filter (!isComment ·) := by
  have hlines : propertyLines (undescribedProperty property) = propertyLines property := rfl
  rw [blockRows, blockRows, List.filter_append, List.filter_append, hlines, List.filter_cons,
    List.filter_cons, filter_description, filter_description]

theorem filter_rows_undescribed (settings : Settings) (model : Model) :
    (rows (ofModel settings (undescribed model))).filter (!isComment ·) =
      (rows (ofModel settings model)).filter (!isComment ·) := by
  have hheader : header settings (undescribed model) = header settings model := rfl
  have hblocks : (undescribed model).properties = model.properties.map undescribedProperty := rfl
  have hrows : ((model.properties.map undescribedProperty).flatMap blockRows).filter (!isComment ·) =
      (model.properties.flatMap blockRows).filter (!isComment ·) := by
    rw [List.filter_flatMap, List.filter_flatMap, List.flatMap_map,
      List.flatMap_congr fun property _ => filter_blockRows_undescribed property]
  rw [rows_ofModel, rows_ofModel, hheader, hblocks]
  simp only [List.filter_append, filter_description, hrows]

/-- **Descriptions.** The lines of a description are what stands between its line feeds. It adds one comment
for each of them to the rows of an outline, behind the header or at the start of the block of its property,
and does nothing else: without comments, the outline of a model is that of the model without
descriptions. -/
theorem descriptions_confined (settings : Settings) (model : Model) :
    rows (ofModel settings model) =
      (header settings model).flatMap rows ++ model.description.toList.flatMap comments ++
        model.properties.flatMap (fun property =>
          "" :: property.description.toList.flatMap comments ++
            (propertyLines property).flatMap rows) ++ [""] ∧
    (∀ description, ∀ comment ∈ comments description, isComment comment = true) ∧
    withoutComments (ofModel settings model) =
      withoutComments (ofModel settings (undescribed model)) := by
  refine ⟨rows_ofModel settings model, fun description comment => isComment_of_mem_comments, ?_⟩
  rw [withoutComments, withoutComments, filter_rows_undescribed]

/-- A parcel whose descriptions try to pass for other lines of the outline. -/
def parcel : Model where
  name := "Parcel"
  scope := "Model"
  parent := none
  description := some "sent\r\nmodel Evil extends Root\n"
  properties :=
    [{ name := "weight"
       type := .primitive "integer"
       docType := "integer"
       required := true
       default := none
       description := some "\n  extra: string"
       getter := "getWeight"
       setter := ⟨"setWeight", "weight", "integer", none⟩
       adder := none }]

/-- In the outline of the parcel all lines of its descriptions are comments. -/
theorem parcel_confined :
    rows (ofModel {} parcel) =
      ["# " ++ generatedNotice, "model Model::Parcel extends Model::BaseModel", "  # sent",
        "  # model Evil extends Root", "", "  # ", "  #   extra: string", "  weight: integer (required)",
        "    getWeight() -> integer", "    setWeight(weight) -> self", ""] ∧
    isComment "  # model Evil extends Root" = true ∧
    withoutComments (ofModel {} parcel) = withoutComments (ofModel {} (undescribed parcel)) := by
  obtain ⟨hrows, hcomments, hwithout⟩ := descriptions_confined {} parcel
  exact ⟨hrows.trans (by decide +kernel),
    hcomments "sent\r\nmodel Evil extends Root\n" _ (by decide +kernel), hwithout⟩

end Outline

end SchemaCompiler
