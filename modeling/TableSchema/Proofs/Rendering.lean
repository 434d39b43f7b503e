import Mathlib.Tactic.Choose
import TableSchema.BigQuery.Ddl
import TableSchema.Proofs.ListLaws

/-!
# The statement of a table from its fields

A field says all that its line in the statement says. `Field.sql` writes that line from the field
alone, by recursion over nested records, and `Table.ddl_eq_statementOf` shows that a statement is
the lines of the field list. Both renderings stop at the same column with the same error.
-/

namespace TableSchema

open BigQuery

-- ---------------------------------------------------------------------------
-- Lines of a statement
-- ---------------------------------------------------------------------------

/-- Puts a backslash before every double quote. -/
def escapeQuotes : List Char → List Char
  | [] => []
  | '"' :: rest => '\\' :: '"' :: escapeQuotes rest
  | c :: rest => c :: escapeQuotes rest

namespace BigQuery.Field

/-- The type of a field. A repeated field is an array and a record of one field a structure. -/
def sqlType : Field → String
  | ⟨_, type, mode, _, fields⟩ =>
    let element := match type, fields with
      | .record, [inner] => "STRUCT<" ++ inner.name ++ " " ++ inner.sqlType ++ ">"
      | type, _ => type.standardName
    if mode = .repeated then "ARRAY<" ++ element ++ ">" else element

def sqlOptions : Option String → String
  | none => ""
  | some text =>
    " OPTIONS (description = \"" ++ String.ofList (escapeQuotes text.toList) ++ "\")"

/-- The line of a field in a statement. -/
def sql (field : Field) : String :=
  field.name ++ " " ++ field.sqlType ++ (if field.mode = .required then " NOT NULL" else "") ++
    sqlOptions field.description

end BigQuery.Field

/-- The first lines of a statement, up to where the columns begin. -/
def Table.statementHeader (table : Table) (case : NameCase) : String :=
  let dataset := match table.schema with
    | some schema => case.apply schema
    | none => "dataset"
  "#standardSQL\nCREATE TABLE `project." ++ dataset ++ "." ++ case.apply table.name ++ "`\n(\n  "

/-- The statement of a table whose columns have these fields. -/
def Table.statementOf (table : Table) (case : NameCase) (fields : List Field) : String :=
  table.statementHeader case ++ ",\n  ".intercalate (fields.map Field.sql) ++ "\n)"

/-- Some BigQuery type corresponds to the type of the column. -/
def Column.Mappable (column : Column) : Prop := ∃ type, column.fieldType = .ok type

-- ---------------------------------------------------------------------------
-- One column
-- ---------------------------------------------------------------------------

theorem escapeQuotes_eq_flatMap (text : List Char) :
    escapeQuotes text = text.flatMap fun c => if c = '"' then ['\\', '"'] else [c] := by
  fun_induction escapeQuotes text with
  | case1 => rfl
  | case2 rest ih => simp [ih]
  | case3 c rest hc ih => rw [List.flatMap_cons, if_neg hc, ih]; rfl

theorem sqlOptions_some (text : String) :
    Field.sqlOptions (some text) = Column.descriptionOption text := by
  unfold Field.sqlOptions Column.descriptionOption
  dsimp only
  rw [← escapeQuotes_eq_flatMap]

theorem join_replicate_succ (n : Nat) (s : String) :
    String.join (List.replicate (n + 1) s) = String.join (List.replicate n s) ++ s := by
  rw [List.replicate_succ', String.join_append, String.join_cons, String.join_nil,
    String.append_empty]

/-- Both encodings of nested arrays count the dimensions alike, from whichever they begin. -/
theorem sqlType_dimension (element : FieldType) (index inner : Nat) :
    (Field.dimension element index inner).sqlType =
      "ARRAY<" ++
        String.join ((List.range inner).map fun k =>
          "STRUCT<dimension_" ++ toString (index + 1 + k) ++ " ARRAY<") ++
        element.standardName ++ ">" ++ String.join (List.replicate inner ">>") := by
  induction inner generalizing index with
  | zero => simp [Field.dimension, Field.sqlType]
  | succ inner ih =>
    have hname : (Field.dimension element (index + 1) inner).name =
        "dimension_" ++ toString (index + 1) := by cases inner <;> rfl
    have hshift : (fun k => "STRUCT<dimension_" ++ toString (index + 1 + k) ++ " ARRAY<") ∘
        Nat.succ = fun k => "STRUCT<dimension_" ++ toString (index + 1 + 1 + k) ++ " ARRAY<" := by
      funext k
      simp only [Function.comp_apply, Nat.succ_eq_add_one, Nat.add_right_comm, Nat.add_assoc]
    have hrecord : "STRUCT<dimension_" = "STRUCT<" ++ "dimension_" := rfl
    have harray : " ARRAY<" = " " ++ "ARRAY<" := rfl
    have hclose : ">>" = ">" ++ ">" := rfl
    rw [join_replicate_succ, List.range_succ_eq_map, List.map_cons, String.join_cons, List.map_map,
      hshift, Field.dimension, Field.sqlType, if_pos rfl, hname, ih, hrecord, harray, hclose]
    simp only [String.append_assoc, Nat.add_zero]

namespace Column

theorem sqlType_fieldOf (column : Column) (case : NameCase) (element : FieldType) :
    (column.fieldOf case element).sqlType ++
        (if (column.fieldOf case element).mode = .required then " NOT NULL" else "") =
      column.sqlType element.standardName := by
  obtain hd | hd | ⟨inner, hd⟩ : column.dimensions = 0 ∨ column.dimensions = 1 ∨
      ∃ inner, column.dimensions = inner + 2 := by
    match column.dimensions with
    | 0 => exact .inl rfl
    | 1 => exact .inr (.inl rfl)
    | inner + 2 => exact .inr (.inr ⟨inner, rfl⟩)
  · cases hn : column.notNull <;>
      simp [fieldOf, sqlType, Field.sqlType, mode, Mode.ofColumn, hd, hn]
  · simp [fieldOf, sqlType, Field.sqlType, mode, Mode.ofColumn, arrayType, hd]
  · -- The record of a column is the dimension before the first, under the name of the column.
    have houter : (column.fieldOf case element).sqlType =
        (Field.dimension element 0 (inner + 1)).sqlType := by
      rw [fieldOf, hd]
      simp only [Field.sqlType, Field.dimension, mode, Mode.ofColumn, hd]
      rfl
    have hmode : (column.fieldOf case element).mode = .repeated := by
      rw [fieldOf, hd]
      simp [mode, Mode.ofColumn, hd]
    rw [houter, hmode, sqlType_dimension, sqlType, hd, if_neg (Nat.succ_ne_zero _), arrayType]
    simp [Nat.add_comm]

theorem sql_fieldOf (column : Column) (case : NameCase) (element : FieldType) :
    (column.fieldOf case element).sql =
      column.nameIn case ++ " " ++ column.sqlType element.standardName ++
        Field.sqlOptions column.comment := by
  have hname : (column.fieldOf case element).name = column.nameIn case := by
    unfold fieldOf; split <;> rfl
  have hdescription : (column.fieldOf case element).description = column.comment := by
    unfold fieldOf; split <;> rfl
  rw [Field.sql, hname, hdescription, ← sqlType_fieldOf column case]
  simp only [String.append_assoc]

theorem fieldType_of_not_mappable {column : Column} (h : ¬column.Mappable) :
    column.fieldType = .error (.unknownType (Unicode.upperCase column.dataType)) := by
  unfold Mappable at h
  unfold fieldType BigQuery.fieldType at h ⊢
  dsimp only at h ⊢
  split
  next rule hr => exact absurd ⟨_, by rw [hr]⟩ h
  next hr =>
    split
    next hf => exact absurd ⟨_, by rw [hr, if_pos hf]⟩ h
    next => rfl

theorem field_of_mappable {column : Column} {type : FieldType} (h : column.fieldType = .ok type)
    (case : NameCase) : column.field case = .ok (column.fieldOf case type) := by
  rw [field, h]; rfl

theorem ddl_of_mappable {column : Column} {type : FieldType} (h : column.fieldType = .ok type)
    (case : NameCase) : column.ddl case = .ok (column.fieldOf case type).sql := by
  rw [ddl, h, sql_fieldOf]
  cases column.comment with
  | none => rfl
  | some text => rw [sqlOptions_some]; rfl

theorem field_of_error {column : Column} {e : Error} (h : column.fieldType = .error e)
    (case : NameCase) : column.field case = .error e := by
  rw [field, h]; rfl

theorem ddl_of_error {column : Column} {e : Error} (h : column.fieldType = .error e)
    (case : NameCase) : column.ddl case = .error e := by
  rw [ddl, h]; rfl

theorem exists_field_iff {column : Column} {case : NameCase} :
    (∃ field, column.field case = .ok field) ↔ column.Mappable :=
  exists_map_eq_ok_iff

theorem exists_ddl_iff {column : Column} {case : NameCase} :
    (∃ line, column.ddl case = .ok line) ↔ column.Mappable :=
  exists_map_eq_ok_iff

end Column

-- ---------------------------------------------------------------------------
-- All columns
-- ---------------------------------------------------------------------------

namespace Table

/-- The case of the names bears on neither success nor the error. -/
theorem fields_eq_error {table : Table} {before after : List Column} {column : Column}
    (hc : table.columns.toList = before ++ column :: after) (hb : ∀ b ∈ before, b.Mappable)
    (hn : ¬column.Mappable) (case : NameCase) :
    table.fields case = .error (.unknownType (Unicode.upperCase column.dataType)) := by
  rw [fields, ColumnMap.fields, hc]
  refine mapM_eq_error (fun b hm => ?_)
    (Column.field_of_error (Column.fieldType_of_not_mappable hn) case)
  obtain ⟨type, ht⟩ := hb b hm
  exact ⟨_, Column.field_of_mappable ht case⟩

theorem ddl_eq_error {table : Table} {before after : List Column} {column : Column}
    (hc : table.columns.toList = before ++ column :: after) (hb : ∀ b ∈ before, b.Mappable)
    (hn : ¬column.Mappable) (case : NameCase) :
    table.ddl case = .error (.unknownType (Unicode.upperCase column.dataType)) := by
  have hlines : (before ++ column :: after).mapM (·.ddl case) =
      .error (.unknownType (Unicode.upperCase column.dataType)) := by
    refine mapM_eq_error (fun b hm => ?_)
      (Column.ddl_of_error (Column.fieldType_of_not_mappable hn) case)
    obtain ⟨type, ht⟩ := hb b hm
    exact ⟨_, Column.ddl_of_mappable ht case⟩
  rw [ddl, hc, hlines]
  rfl

theorem statementHeader_eq (table : Table) (case : NameCase) :
    table.statementHeader case =
      "#standardSQL\nCREATE TABLE `" ++ project ++ "." ++
        (table.schemaIn case).getD defaultDataset ++ "." ++ table.nameIn case ++ "`\n(\n  " := by
  have hproject : "#standardSQL\nCREATE TABLE `project." =
      "#standardSQL\nCREATE TABLE `" ++ project ++ "." := rfl
  unfold statementHeader schemaIn
  rw [hproject]
  cases table.schema <;> rfl

theorem ddl_eq_statementOf {table : Table} (h : ∀ c ∈ table.columns.toList, c.Mappable)
    (case : NameCase) :
    ∃ fields, table.fields case = .ok fields ∧
      table.ddl case = .ok (table.statementOf case fields) := by
  have htype (c : Column) : ∃ type, c ∈ table.columns.toList → c.fieldType = .ok type := by
    by_cases hc : c ∈ table.columns.toList
    · obtain ⟨type, ht⟩ := h c hc
      exact ⟨type, fun _ => ht⟩
    · exact ⟨.string, fun hm => absurd hm hc⟩
  choose type ht using htype
  have hfields : table.fields case =
      .ok (table.columns.toList.map fun c => c.fieldOf case (type c)) :=
    mapM_eq_map fun c hc => Column.field_of_mappable (ht c hc) case
  have hlines : table.columns.toList.mapM (·.ddl case) =
      .ok (table.columns.toList.map fun c => (c.fieldOf case (type c)).sql) :=
    mapM_eq_map fun c hc => Column.ddl_of_mappable (ht c hc) case
  refine ⟨_, hfields, ?_⟩
  rw [ddl, hlines, statementOf, statementHeader_eq, List.map_map]
  rfl

theorem exists_fields_iff {table : Table} {case : NameCase} :
    (∃ fields, table.fields case = .ok fields) ↔ ∀ c ∈ table.columns.toList, c.Mappable := by
  rw [fields, ColumnMap.fields, exists_mapM_eq_ok_iff]
  simp only [Column.exists_field_iff]

theorem exists_ddl_iff {table : Table} {case : NameCase} :
    (∃ statement, table.ddl case = .ok statement) ↔ ∀ c ∈ table.columns.toList, c.Mappable := by
  have hlines : (∃ lines, table.columns.toList.mapM (·.ddl case) = .ok lines) ↔
      ∀ c ∈ table.columns.toList, c.Mappable := by
    rw [exists_mapM_eq_ok_iff]
    simp only [Column.exists_ddl_iff]
  rw [← hlines, ddl]
  exact exists_map_eq_ok_iff

/-- Both renderings of a table fail at the first column without a BigQuery type, whatever the case
of names; otherwise the statement is written from the field list alone. -/
theorem ddl_agrees_with_fields (table : Table) :
    (∃ before column after, table.columns.toList = before ++ column :: after ∧
      (∀ b ∈ before, b.Mappable) ∧ ¬column.Mappable ∧
      ∀ case,
        table.fields case = .error (.unknownType (Unicode.upperCase column.dataType)) ∧
        table.ddl case = .error (.unknownType (Unicode.upperCase column.dataType))) ∨
    ((∀ c ∈ table.columns.toList, c.Mappable) ∧
      ∀ case, ∃ fields, table.fields case = .ok fields ∧
        table.ddl case = .ok (table.statementOf case fields)) := by
  rcases all_or_first_not Column.Mappable table.columns.toList with
    h | ⟨before, column, after, hc, hb, hn⟩
  · exact .inr ⟨h, ddl_eq_statementOf h⟩
  · exact .inl ⟨before, column, after, hc, hb, hn, fun case =>
      ⟨fields_eq_error hc hb hn case, ddl_eq_error hc hb hn case⟩⟩

end Table

end TableSchema
