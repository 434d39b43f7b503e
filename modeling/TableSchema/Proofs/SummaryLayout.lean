import Mathlib.Data.List.Fold
import Mathlib.Data.List.Forall2
import Mathlib.Data.List.MinMax
import Mathlib.Order.Nat
import TableSchema.Proofs.ListLaws
import TableSchema.Summary

/-!
# Layout of summaries

Summaries of several tables stand below each other with an empty line between them. Within a table
the arrows of all rows stand in one line, names and types before them are whole, and nothing is cut
off at the end of a row. Without warnings a summary is what it is with them, less their lines. There
is a summary of tables unless a name or a type is too wide to be padded.
-/

namespace TableSchema

namespace Summary

/-- A line of a summary, which may be a warning. -/
structure Line where
  text : String
  isWarning : Bool := false

/-- Length and scale as declared. A scale stands behind a length only. -/
def sizeOf (column : Column) : String :=
  column.length.elim "" fun length =>
    "(" ++ length.text ++ column.scale.elim "" (fun scale => "," ++ toString scale) ++ ")"

/-- The source type of a column: its type, length and scale, its sign, and a pair of brackets for
each dimension. -/
def sourceTypeOf (column : Column) : String :=
  column.dataType ++ sizeOf column ++ (if column.unsigned then " UNSIGNED" else "") ++
    String.join (List.replicate column.dimensions "[]")

/-- The warning below the row of a column, if it has no BigQuery type. -/
def warningOf (column : Column) : List Line :=
  match column.fieldType with
  | .ok _ => []
  | .error _ =>
    [{ text := "    warning: no BigQuery type for " ++ sourceTypeOf column, isWarning := true }]

/-- What the arrow of a column points to. -/
def targetOf (column : Column) : String :=
  match column.fieldType with
  | .ok type => type.name ++ " " ++ column.mode.name
  | .error _ => "?"

/-- What a row says behind the type, if there is anything to say. -/
def detailsOf (column : Column) : String :=
  (if column.constraintText = "" then "" else "  [" ++ column.constraintText ++ "]") ++
    match column.comment with
    | some comment => "  \"" ++ comment ++ "\""
    | none => ""

/-- The lines of a table that has the given rows, one for each column. -/
def tableLayout (case : NameCase) (sourced : SourcedTable) (rows : List String) : List Line :=
  (headerLines sourced case).map ({ text := · }) ++
    { text := "Columns (" ++ toString rows.length ++ "):" } ::
      (sourced.table.columns.toList.zip rows).flatMap
        (fun (column, row) => { text := row } :: warningOf column) ++
    (foreignKeyLines sourced.table).map ({ text := · })

/-- A text with spaces behind it up to a width. -/
def cell (width : Nat) (text : String) : String :=
  text ++ String.ofList (List.replicate (width - text.length) ' ')

/-- The row of a column in a table whose first two cells have the given widths. -/
def rowText (case : NameCase) (nameWidth typeWidth : Nat) (column : Column) : String :=
  "  " ++ cell nameWidth (column.nameIn case) ++ "  " ++ cell typeWidth (sourceTypeOf column) ++
    "  " ++ "-> " ++ targetOf column ++ detailsOf column

/-- The rows of a table, the cells of each as wide as the widest. -/
def rowTexts (case : NameCase) (table : Table) : List String :=
  let columns := table.columns.toList
  columns.map (rowText case (widest (columns.map (·.nameIn case)))
    (widest (columns.map sourceTypeOf)))

/-- All lines of the summaries of tables, an empty line between them. -/
def layout (case : NameCase) (tables : List SourcedTable) : List Line :=
  [{ text := "" }].intercalate
    (tables.map fun sourced => tableLayout case sourced (rowTexts case sourced.table))

/-- The texts of lines, or of those that are no warnings. -/
def shown (quiet : Bool) (lines : List Line) : List String :=
  (lines.filter fun line => !(quiet && line.isWarning)).map (·.text)

/-- The row of a column: its name and its source type in full, each with nothing but spaces behind
it, and then the arrow at an offset. -/
def IsRowOf (case : NameCase) (offset : Nat) (column : Column) (text : String) : Prop :=
  ∃ lead namePad typePad,
    lead = "  " ++ column.nameIn case ++ String.ofList (List.replicate namePad ' ') ++ "  " ++
        sourceTypeOf column ++ String.ofList (List.replicate typePad ' ') ++ "  " ∧
      lead.length = offset ∧ text = lead ++ "-> " ++ targetOf column ++ detailsOf column

/-- No name and no source type is wider than what can be padded. -/
def Fits (case : NameCase) (table : Table) : Prop :=
  ∀ column ∈ table.columns.toList,
    (column.nameIn case).length ≤ 65535 ∧ (sourceTypeOf column).length ≤ 65535

-- ---------------------------------------------------------------------------
-- Widths
-- ---------------------------------------------------------------------------

theorem widest_le_iff {texts : List String} {width : Nat} :
    widest texts ≤ width ↔ ∀ text ∈ texts, text.length ≤ width := by
  rw [widest, List.foldl_eq_foldr]
  constructor
  · intro h text ht
    exact le_trans (List.le_max_of_le' 0 (List.mem_map_of_mem ht) le_rfl) h
  · intro h
    exact List.max_le_of_forall_le _ width (List.forall_mem_map.mpr h)

theorem length_cell_widest {texts : List String} {text : String} (h : text ∈ texts) :
    (cell (widest texts) text).length = widest texts := by
  have hle : text.length ≤ widest texts := widest_le_iff.mp le_rfl text h
  simp only [cell, String.length_append, String.length_ofList, List.length_replicate]
  omega

theorem padTo_of_le {width : Nat} (h : width ≤ maxWidth) (text : String) :
    padTo width text = .ok (cell width text) := if_pos h

theorem padTo_of_lt {width : Nat} (h : maxWidth < width) (text : String) :
    padTo width text = .error {} := if_neg (Nat.not_le.mpr h)

theorem fits_iff {case : NameCase} {table : Table} :
    Fits case table ↔
      widest (table.columns.toList.map (·.nameIn case)) ≤ maxWidth ∧
        widest (table.columns.toList.map sourceTypeOf) ≤ maxWidth := by
  simp only [widest_le_iff, List.forall_mem_map, ← forall₂_and]
  rfl

theorem declaredType_eq (column : Column) : column.declaredType = sourceTypeOf column := by
  unfold Column.declaredType sourceTypeOf sizeOf
  cases column.length with
  | none => rfl
  | some length => cases column.scale <;> simp [String.append_assoc]

-- ---------------------------------------------------------------------------
-- Rows
-- ---------------------------------------------------------------------------

/-- A text at whose end there is nothing to trim. -/
def EndsVisibly (text : String) : Prop :=
  ∃ init c, text.toList = init ++ [c] ∧ Unicode.isBlank c = false

theorem EndsVisibly.append {t : String} (h : EndsVisibly t) (s : String) : EndsVisibly (s ++ t) := by
  obtain ⟨init, c, ht, hc⟩ := h
  exact ⟨s.toList ++ init, c, by simp [ht], hc⟩

theorem EndsVisibly.trimEnd_eq {text : String} (h : EndsVisibly text) :
    Text.trimEnd text.toList = text.toList := by
  obtain ⟨init, c, ht, hc⟩ := h
  simp [Text.trimEnd, ht, hc]

section
variable {case : NameCase} {column : Column} {nameWidth typeWidth : Nat}

theorem endsVisibly_targetOf (column : Column) : EndsVisibly (targetOf column) := by
  unfold targetOf
  split
  · apply EndsVisibly.append
    cases column.mode with
    | required => exact ⟨"REQUIRE".toList, 'D', rfl, rfl⟩
    | nullable => exact ⟨"NULLABL".toList, 'E', rfl, rfl⟩
    | repeated => exact ⟨"REPEATE".toList, 'D', rfl, rfl⟩
  · exact ⟨[], '?', rfl, rfl⟩

/-- A row ends in a quotation mark, a bracket, a mode or a question mark. -/
theorem endsVisibly_details (column : Column) :
    EndsVisibly (targetOf column ++ detailsOf column) := by
  unfold detailsOf
  cases column.comment with
  | some comment =>
    have hquote : EndsVisibly "\"" := ⟨[], '"', rfl, rfl⟩
    exact ((hquote.append _).append _).append _
  | none =>
    have hbracket : EndsVisibly "]" := ⟨[], ']', rfl, rfl⟩
    rw [String.append_empty]
    split
    · simpa using endsVisibly_targetOf column
    · exact (hbracket.append _).append _

theorem trimEnd_rowText (case : NameCase) (nameWidth typeWidth : Nat) (column : Column) :
    Text.trimEnd (rowText case nameWidth typeWidth column).toList =
      (rowText case nameWidth typeWidth column).toList := by
  rw [rowText, String.append_assoc]
  exact ((endsVisibly_details column).append _).trimEnd_eq

section
variable (hname : nameWidth ≤ maxWidth) (htype : typeWidth ≤ maxWidth)

include hname htype

theorem line_ofColumn :
    (Row.ofColumn case column).line nameWidth typeWidth =
      .ok (rowText case nameWidth typeWidth column) := by
  have htarget : (Row.ofColumn case column).target.getD "?" = targetOf column := by
    unfold Row.ofColumn targetOf
    cases column.fieldType <;> rfl
  have hsource : (Row.ofColumn case column).sourceType = sourceTypeOf column :=
    declaredType_eq column
  rw [Row.line, padTo_of_le hname, padTo_of_le htype, htarget, hsource]
  simp only [rowText, detailsOf, String.append_assoc]
  rfl

theorem lines_ofColumn (quiet : Bool) :
    (Row.ofColumn case column).lines quiet nameWidth typeWidth =
      .ok (rowText case nameWidth typeWidth column :: shown quiet (warningOf column)) := by
  have htext : (Row.ofColumn case column).warning =
      "    warning: no BigQuery type for " ++ sourceTypeOf column := by
    rw [← declaredType_eq]
    rfl
  have hwarning : (if (Row.ofColumn case column).target.isNone && !quiet then
      [(Row.ofColumn case column).warning] else []) = shown quiet (warningOf column) := by
    rw [htext]
    unfold warningOf Row.ofColumn
    cases column.fieldType <;> cases quiet <;> rfl
  rw [Row.lines, line_ofColumn hname htype]
  simp only [bind, Except.bind, pure, Except.pure, trimEnd_rowText, String.ofList_toList, hwarning]

end

/-- No row is made if one of its cells is too wide. -/
theorem lines_of_wide (h : maxWidth < nameWidth ∨ maxWidth < typeWidth) (quiet : Bool)
    (row : Row) : row.lines quiet nameWidth typeWidth = .error {} := by
  rw [Row.lines, Row.line]
  by_cases hname : nameWidth ≤ maxWidth
  · have htype : maxWidth < typeWidth := h.resolve_left (Nat.not_lt.mpr hname)
    rw [padTo_of_le hname, padTo_of_lt htype]
    rfl
  · rw [padTo_of_lt (Nat.not_le.mp hname)]
    rfl

theorem trimEnd_line {text : String}
    (h : (Row.ofColumn case column).line nameWidth typeWidth = .ok text) :
    Text.trimEnd text.toList = text.toList := by
  by_cases hfits : nameWidth ≤ maxWidth ∧ typeWidth ≤ maxWidth
  · rw [line_ofColumn hfits.1 hfits.2] at h
    cases h
    exact trimEnd_rowText case nameWidth typeWidth column
  · rw [not_and_or, Nat.not_le, Nat.not_le] at hfits
    have hlines := lines_of_wide hfits true (Row.ofColumn case column)
    rw [Row.lines, h] at hlines
    cases hlines

theorem isRowOf_rowText (hname : (cell nameWidth (column.nameIn case)).length = nameWidth)
    (htype : (cell typeWidth (sourceTypeOf column)).length = typeWidth) :
    IsRowOf case (nameWidth + typeWidth + 6) column (rowText case nameWidth typeWidth column) := by
  refine ⟨_, nameWidth - (column.nameIn case).length, typeWidth - (sourceTypeOf column).length, ?_,
    ?_, rfl⟩
  · simp only [cell, String.append_assoc]
  · have hgap : "  ".length = 2 := rfl
    simp only [String.length_append, hname, htype, hgap]
    omega

end

/-- Both cells are as wide in all rows, so the arrows stand below each other. -/
theorem isRowOf_rowTexts (case : NameCase) (table : Table) :
    ∃ offset, List.Forall₂ (IsRowOf case offset) table.columns.toList (rowTexts case table) := by
  refine ⟨widest (table.columns.toList.map (·.nameIn case)) +
    widest (table.columns.toList.map sourceTypeOf) + 6, ?_⟩
  rw [rowTexts, List.forall₂_map_right_iff, List.forall₂_same]
  intro column hcolumn
  exact isRowOf_rowText (length_cell_widest (List.mem_map_of_mem hcolumn))
    (length_cell_widest (List.mem_map_of_mem hcolumn))

-- ---------------------------------------------------------------------------
-- Lines
-- ---------------------------------------------------------------------------

section
variable (case : NameCase) (quiet : Bool)

theorem shown_append (lines more : List Line) :
    shown quiet (lines ++ more) = shown quiet lines ++ shown quiet more := by
  simp [shown]

theorem shown_plain (texts : List String) : shown quiet (texts.map ({ text := · })) = texts := by
  simp [shown, List.filter_map, Function.comp_def]

theorem shown_cons_plain (text : String) (lines : List Line) :
    shown quiet ({ text := text } :: lines) = text :: shown quiet lines := by
  simp [shown]

theorem shown_flatMap (l : List α) (f : α → List Line) :
    shown quiet (l.flatMap f) = l.flatMap fun x => shown quiet (f x) := by
  simp [shown, List.filter_flatMap, List.map_flatMap]

/-- The widths that the rows of a table are padded to. -/
theorem widths_ofColumn (table : Table) :
    widest ((table.columns.toList.map (Row.ofColumn case)).map (·.name)) =
        widest (table.columns.toList.map (·.nameIn case)) ∧
      widest ((table.columns.toList.map (Row.ofColumn case)).map (·.sourceType)) =
        widest (table.columns.toList.map sourceTypeOf) := by
  rw [List.map_map, List.map_map]
  exact ⟨rfl, congrArg widest (List.map_congr_left fun column _ => declaredType_eq column)⟩

/-- The rows of a table that fits, with the warnings below them. -/
theorem columnLines_of_fits {table : Table} (h : Fits case table) :
    columnLines table case quiet =
      .ok (("Columns (" ++ toString (rowTexts case table).length ++ "):") ::
        shown quiet ((table.columns.toList.zip (rowTexts case table)).flatMap
          fun (column, row) => { text := row } :: warningOf column)) := by
  obtain ⟨hname, htype⟩ := fits_iff.mp h
  obtain ⟨hnames, htypes⟩ := widths_ofColumn case table
  have hlines (column : Column) : (Row.ofColumn case column).lines quiet _ _ = _ :=
    lines_ofColumn hname htype quiet
  have hrows := mapM_eq_map (l := table.columns.toList) fun column _ => hlines column
  have hzip (f : Column → String) (l : List Column) : l.zip (l.map f) = l.map fun c => (c, f c) :=
    List.map_prod_left_eq_zip.symm
  rw [columnLines, hnames, htypes, List.mapM_map]
  simp only [Function.comp_def, hrows, rowTexts, hzip, shown_flatMap, List.flatMap_map,
    shown_cons_plain, List.length_map]
  rfl

theorem tableLines_of_fits {sourced : SourcedTable} (h : Fits case sourced.table) :
    tableLines case quiet sourced =
      .ok (shown quiet (tableLayout case sourced (rowTexts case sourced.table))) := by
  rw [tableLines, columnLines_of_fits case quiet h, tableLayout, shown_append, shown_append,
    shown_plain, shown_plain, shown_cons_plain]
  rfl

theorem tableLines_of_not_fits {sourced : SourcedTable} (h : ¬Fits case sourced.table) :
    tableLines case quiet sourced = .error {} := by
  obtain ⟨hnames, htypes⟩ := widths_ofColumn case sourced.table
  rw [fits_iff, not_and_or, Nat.not_le, Nat.not_le] at h
  have hcolumns : columnLines sourced.table case quiet = .error {} := by
    rw [columnLines, hnames, htypes, List.mapM_map]
    cases hc : sourced.table.columns.toList with
    | nil =>
      rw [hc] at h
      exact absurd h (by simp [widest])
    | cons column rest =>
      rw [hc] at h
      rw [List.mapM_cons, Function.comp_apply, lines_of_wide h]
      rfl
  rw [tableLines, hcolumns]
  rfl

theorem textOf_append (lines more : List String) :
    textOf (lines ++ more) = textOf lines ++ textOf more := by
  simp [textOf]

theorem intercalate_textOf (tables : List SourcedTable) :
    "\n".intercalate (tables.map fun sourced =>
        textOf (shown quiet (tableLayout case sourced (rowTexts case sourced.table)))) =
      textOf (shown quiet (layout case tables)) := by
  have hempty : textOf (shown quiet [{ text := "" }]) = "\n" := by cases quiet <;> rfl
  induction tables with
  | nil => rfl
  | cons first rest ih =>
    cases rest with
    | nil => simp [layout]
    | cons second rest =>
      simp only [layout, List.map_cons, String.intercalate_cons_cons,
        List.intercalate_cons_cons] at ih ⊢
      rw [ih, shown_append, shown_append, textOf_append, textOf_append, hempty]

theorem summary_of_fits {tables : List SourcedTable}
    (h : ∀ sourced ∈ tables, Fits case sourced.table) :
    summary tables case quiet = .ok (textOf (shown quiet (layout case tables))) := by
  rw [summary, mapM_eq_map fun sourced hs => tableLines_of_fits case quiet (h sourced hs)]
  change Except.ok _ = _
  rw [List.map_map]
  exact congrArg Except.ok (intercalate_textOf case quiet tables)

theorem exists_summary_iff {tables : List SourcedTable} :
    (∃ text, summary tables case quiet = .ok text) ↔
      ∀ sourced ∈ tables, Fits case sourced.table := by
  constructor
  · rintro ⟨text, h⟩
    have hlines : ∃ lines, tables.mapM (tableLines case quiet) = .ok lines := by
      rw [summary] at h
      cases hm : tables.mapM (tableLines case quiet) with
      | error e => rw [hm] at h; cases h
      | ok lines => exact ⟨lines, rfl⟩
    intro sourced hs
    by_contra hn
    obtain ⟨lines, hl⟩ := exists_mapM_eq_ok_iff.mp hlines sourced hs
    rw [tableLines_of_not_fits case quiet hn] at hl
    cases hl
  · exact fun h => ⟨_, summary_of_fits case quiet h⟩

/-- The summary of several tables is made of theirs. -/
theorem summary_append {tables more : List SourcedTable} (htables : tables ≠ [])
    (hmore : more ≠ []) :
    summary (tables ++ more) case quiet = do
      return (← summary tables case quiet) ++ "\n" ++ (← summary more case quiet) := by
  have hne {l : List SourcedTable} {lines : List (List String)} (hl : l ≠ [])
      (h : l.mapM (tableLines case quiet) = .ok lines) : lines.map textOf ≠ [] := by
    have hlength := (forall₂_of_mapM_eq_ok h).length_eq
    rw [ne_eq, List.map_eq_nil_iff, ← List.length_eq_zero_iff, ← hlength, List.length_eq_zero_iff]
    exact hl
  rw [summary, List.mapM_append, summary, summary]
  cases hfirst : tables.mapM (tableLines case quiet) with
  | error e => rfl
  | ok first =>
    cases hsecond : more.mapM (tableLines case quiet) with
    | error e => rfl
    | ok second =>
      change Except.ok _ = Except.ok _
      rw [List.map_append,
        String.intercalate_append_of_ne_nil (hne htables hfirst) (hne hmore hsecond)]

end

/-- The summary of several tables is made of theirs, and there is one if every name and every source
type can be padded. Nothing is trimmed from a row. The rows of a table stand for its columns, in
order, with their arrows below each other. A warning stands below each row without a type and
nowhere else, and a quiet summary has all lines but these. -/
theorem summary_layout (case : NameCase) :
    (∀ tables more quiet, tables ≠ [] → more ≠ [] →
      summary (tables ++ more) case quiet = do
        return (← summary tables case quiet) ++ "\n" ++ (← summary more case quiet)) ∧
    (∀ tables quiet, (∃ text, summary tables case quiet = .ok text) ↔
      ∀ sourced ∈ tables, Fits case sourced.table) ∧
    (∀ column nameWidth typeWidth text,
      (Row.ofColumn case column).line nameWidth typeWidth = .ok text →
      Text.trimEnd text.toList = text.toList) ∧
    (∀ table : Table, ∃ offset,
      List.Forall₂ (IsRowOf case offset) table.columns.toList (rowTexts case table)) ∧
    ∀ tables, (∀ sourced ∈ tables, Fits case sourced.table) →
      summary tables case false = .ok (textOf ((layout case tables).map (·.text))) ∧
      summary tables case true =
        .ok (textOf (((layout case tables).filter (!·.isWarning)).map (·.text))) := by
  refine ⟨fun _ _ quiet => summary_append case quiet, fun _ quiet => exists_summary_iff case quiet,
    fun _ _ _ _ => trimEnd_line, isRowOf_rowTexts case, fun tables h => ⟨?_, ?_⟩⟩
  · simpa [shown] using summary_of_fits case false h
  · simpa [shown] using summary_of_fits case true h

theorem summary_layout_of_two :
    let geometry : SourcedTable :=
      ⟨"a.sql", ⟨none, "t", false, .ofList [.new "id" "int", .new "shape" "geometry"], [], none⟩⟩
    let text : SourcedTable := ⟨"b.sql", ⟨none, "u", true, .ofList [.new "é" "text"], [], none⟩⟩
    (summary ([geometry] ++ [text]) .upper true = do
      return (← summary [geometry] .upper true) ++ "\n" ++ (← summary [text] .upper true)) ∧
    ∃ summarized, summary ([geometry] ++ [text]) .upper true = .ok summarized := by
  intro geometry text
  have hfits : ∀ sourced ∈ [geometry] ++ [text], Fits .upper sourced.table := by
    unfold Fits
    decide +kernel
  have hlayout := summary_layout .upper
  exact ⟨hlayout.1 _ _ true (by simp) (by simp), (hlayout.2.1 _ true).mpr hfits⟩

/-- There is no row, and no summary at all, where a name is too wide to be padded. -/
theorem summary_of_long_name :
    summary [⟨"a.sql", ⟨none, "t", false,
      .ofList [.new (String.ofList (List.replicate 65536 'a')) "int"], [], none⟩⟩] .declared false =
      .error {} := by
  generalize hname : String.ofList (List.replicate 65536 'a') = name
  have hlength : name.length = 65536 := by
    rw [← hname, String.length_ofList, List.length_replicate]
  let sourced : SourcedTable :=
    ⟨"a.sql", ⟨none, "t", false, .ofList [.new name "int"], [], none⟩⟩
  have hcolumns : sourced.table.columns.toList = [.new name "int"] := rfl
  have hwide : ¬∃ text, summary [sourced] .declared false = .ok text := by
    intro h
    have hfits := (exists_summary_iff .declared false).mp h sourced (List.mem_singleton_self _)
    have hcolumn : (Column.new name "int").nameIn .declared = name := rfl
    have hle := (hfits (.new name "int") (by rw [hcolumns]; exact List.mem_singleton_self _)).1
    rw [hcolumn, hlength] at hle
    omega
  cases h : summary [sourced] .declared false with
  | ok text => exact absurd ⟨text, h⟩ hwide
  | error e => rfl

end Summary

end TableSchema
