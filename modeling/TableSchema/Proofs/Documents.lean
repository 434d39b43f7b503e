import TableSchema.Document
import TableSchema.Proofs.Rendering
import TableSchema.Proofs.SummaryLayout

/-!
# What a document says

A document is all of its tables in order: the layout of their summaries, their models, or their
field lists or statements one by one. `IsRendering` says so for each format, and every document that
is made is one.
-/

namespace TableSchema.Document

variable {tables : List SourcedTable} {format : Format} {case : NameCase} {quiet compactly : Bool}

/-- The model of a table with the name of its source. -/
def modelOf (sourced : SourcedTable) : Json :=
  .object [("source", .string sourced.source), ("table", sourced.table.toJson)]

/-- The text is a document of all the tables, in order, and of nothing else. A single model is no
array. -/
def IsRendering (tables : List SourcedTable) (format : Format) (case : NameCase)
    (quiet compactly : Bool) (document : String) : Prop :=
  match format with
  | .table =>
    document = Summary.textOf (Summary.shown quiet (Summary.layout case tables))
  | .json =>
    (∃ single, tables = [single] ∧ document = (modelOf single).render compactly) ∨
      tables.length ≠ 1 ∧ document = (Json.array (tables.map modelOf)).render compactly
  | .fields =>
    ∃ lists, List.Forall₂ (fun sourced fields => sourced.table.fields case = .ok fields)
        tables lists ∧
      document =
        "\n".intercalate (lists.map fun fields => (BigQuery.schemaJson fields).render compactly)
  | .ddl =>
    ∃ statements, List.Forall₂ (fun sourced statement => sourced.table.ddl case = .ok statement)
        tables statements ∧
      document = "\n\n".intercalate statements

-- ---------------------------------------------------------------------------
-- When there is a document
-- ---------------------------------------------------------------------------

theorem mapError_eq_ok_iff {f : ε → ε'} {x : Except ε α} : x.mapError f = .ok a ↔ x = .ok a := by
  cases x <;> simp [Except.mapError]

theorem exists_renderEach_iff {render : Table → Except Error String} :
    (∃ texts, renderEach render tables = .ok texts) ↔
      ∀ sourced ∈ tables, ∃ text, render sourced.table = .ok text := by
  rw [renderEach, exists_mapM_eq_ok_iff]
  exact forall₂_congr fun sourced _ => exists_congr fun text => mapError_eq_ok_iff

/-- Field lists and statements need a type for every column, summaries columns that fit. -/
theorem exists_render_iff :
    (∃ document, render tables format case quiet compactly = .ok document) ↔
      (format = .fields ∨ format = .ddl →
        ∀ sourced ∈ tables, ∀ column ∈ sourced.table.columns.toList, column.Mappable) ∧
      (format = .table → ∀ sourced ∈ tables, Summary.Fits case sourced.table) := by
  cases format with
  | table =>
    simp only [render, mapError_eq_ok_iff, Summary.exists_summary_iff]
    simp
  | json => simp [render]
  | fields =>
    simp only [render, mapError_eq_ok_iff, fields, exists_map_eq_ok_iff,
      exists_renderEach_iff, Table.exists_fields_iff]
    simp
  | ddl =>
    simp only [render, mapError_eq_ok_iff, ddl, exists_map_eq_ok_iff,
      exists_renderEach_iff, Table.exists_ddl_iff]
    simp

/-- Without a summary nothing is missing but the width. -/
theorem render_table_of_not_fits (h : ¬∀ sourced ∈ tables, Summary.Fits case sourced.table) :
    render tables .table case quiet compactly = .error (.tooWide {}) := by
  have hnone : ¬∃ text, summary tables case quiet = .ok text :=
    fun hs => h ((Summary.exists_summary_iff case quiet).mp hs)
  rw [render]
  cases hs : summary tables case quiet with
  | ok text => exact absurd ⟨text, hs⟩ hnone
  | error e => rfl

theorem exists_unmapped_of_render {e : Failure} (hformat : format = .fields ∨ format = .ddl)
    (h : render tables format case quiet compactly = .error e) : ∃ cause, e = .unmapped cause := by
  have hcause {x : Except MapError String} (hx : x.mapError Failure.unmapped = .error e) :
      ∃ cause, e = .unmapped cause := by
    cases x with
    | ok text => cases hx
    | error cause => exact ⟨cause, (Except.error.inj hx).symm⟩
  obtain rfl | rfl := hformat
  · exact hcause h
  · exact hcause h

-- ---------------------------------------------------------------------------
-- What it says
-- ---------------------------------------------------------------------------

theorem forall₂_renderEach {render : Table → Except Error String} {texts : List String}
    (h : renderEach render tables = .ok texts) :
    List.Forall₂ (fun sourced text => render sourced.table = .ok text) tables texts :=
  (forall₂_of_mapM_eq_ok h).imp fun _ _ => mapError_eq_ok_iff.mp

theorem exists_of_forall₂_map_eq_ok {f : α → Except ε β} {g : β → γ} {l : List α} {m : List γ}
    (h : List.Forall₂ (fun a c => g <$> f a = .ok c) l m) :
    ∃ n, List.Forall₂ (fun a b => f a = .ok b) l n ∧ m = n.map g := by
  induction h with
  | nil => exact ⟨[], .nil, rfl⟩
  | @cons a c l m ha _ ih =>
    obtain ⟨n, hn, rfl⟩ := ih
    cases hf : f a with
    | error e => rw [hf] at ha; cases ha
    | ok b =>
      rw [hf] at ha
      cases ha
      exact ⟨b :: n, .cons hf hn, rfl⟩

theorem isRendering_json (tables : List SourcedTable) (compactly : Bool) :
    IsRendering tables .json case quiet compactly (json tables compactly) := by
  match tables with
  | [] => exact .inr ⟨by simp, rfl⟩
  | [single] => exact .inl ⟨single, rfl, rfl⟩
  | first :: second :: rest => exact .inr ⟨by simp, rfl⟩

theorem isRendering_fields {document : String} (h : fields tables case compactly = .ok document) :
    IsRendering tables .fields case quiet compactly document := by
  rw [fields] at h
  cases hr : renderEach (fun table => (BigQuery.schemaJson · |>.render compactly) <$>
      table.fields case) tables with
  | error e => rw [hr] at h; cases h
  | ok texts =>
    rw [hr] at h
    cases h
    obtain ⟨lists, hlists, rfl⟩ := exists_of_forall₂_map_eq_ok (forall₂_renderEach hr)
    exact ⟨lists, hlists, rfl⟩

theorem isRendering_ddl {document : String} (h : ddl tables case = .ok document) :
    IsRendering tables .ddl case quiet compactly document := by
  rw [ddl] at h
  cases hr : renderEach (·.ddl case) tables with
  | error e => rw [hr] at h; cases h
  | ok statements =>
    rw [hr] at h
    cases h
    exact ⟨statements, forall₂_renderEach hr, rfl⟩

theorem isRendering_of_render {document : String}
    (h : render tables format case quiet compactly = .ok document) :
    IsRendering tables format case quiet compactly document := by
  cases format with
  | table =>
    have hfits := (exists_render_iff.mp ⟨document, h⟩).2 rfl
    have hsummary := (Summary.summary_of_fits case quiet hfits).symm.trans (mapError_eq_ok_iff.mp h)
    exact (Except.ok.inj hsummary).symm
  | json =>
    cases h
    exact isRendering_json tables compactly
  | fields => exact isRendering_fields (mapError_eq_ok_iff.mp h)
  | ddl => exact isRendering_ddl (mapError_eq_ok_iff.mp h)

end TableSchema.Document
