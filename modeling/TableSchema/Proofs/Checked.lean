import TableSchema.BigQuery.Ddl
import TableSchema.Proofs.Checked.Statement

/-!
# Checked conversion

Reading a table and rendering it with every operation checked. `convert_eq` is the result: on no text
does any check fail or any loop stand still, and what comes out is what the unchecked functions give.
-/

namespace TableSchema.Checked

open BigQuery

-- ---------------------------------------------------------------------------
-- Tables
-- ---------------------------------------------------------------------------

def parse (text : String) (dialect : Option Dialect) : Except Fault (Except Error Table) := do
  if Text.isBlankText text.toList then return .error .missingInput
  match ← readStatement text.toList with
  | .error e => return .error (.parse { e with dialect })
  | .ok statement => return Table.ofStatement statement dialect

theorem parse_eq (text : String) (dialect : Option Dialect) :
    parse text dialect = .ok (Table.parse text dialect) := by
  rw [parse, Table.parse, readStatement_eq, ok_bind, Statement.read]
  split
  next => rfl
  next => cases Statement.readChars text.toList <;> rfl

-- ---------------------------------------------------------------------------
-- Renderings
-- ---------------------------------------------------------------------------

/-- The record around the field of a dimension. -/
def enclose (nested : Field) (index : Nat) : Field :=
  { name := "dimension_" ++ toString index, type := .record, mode := .repeated, fields := [nested] }

/-- The field of a column, the dimensions of an array from the inside out. -/
def fieldOf (column : Column) (case : NameCase) (element : FieldType) : Except Fault Field := do
  let field : Field :=
    { name := column.nameIn case
      type := element
      mode := column.mode
      description := column.comment }
  if column.dimensions ≤ 1 then return field
  let last ← difference column.dimensions 1
  let innermost : Field :=
    { name := "dimension_" ++ toString last, type := element, mode := column.mode }
  let indices := (List.range' 1 (last - 1)).reverse
  return { field with type := .record, fields := [indices.foldl enclose innermost] }

def arrayType (element : String) (dimensions : Nat) : Except Fault String := do
  let inner := (List.range' 1 (dimensions - 1)).map fun index =>
    "STRUCT<dimension_" ++ toString index ++ " ARRAY<"
  let closing := List.replicate (← difference dimensions 1) ">>"
  return "ARRAY<" ++ String.join inner ++ element ++ ">" ++ String.join closing

def sqlType (column : Column) (element : String) : Except Fault String :=
  if column.dimensions = 0 then return element ++ if column.notNull then " NOT NULL" else ""
  else arrayType element column.dimensions

/-- Renders columns in order, up to the first without a type. -/
def renderEach (render : Column → FieldType → Except Fault α) :
    List Column → Except Fault (Except Error (List α))
  | [] => return .ok []
  | column :: columns => do
    match column.fieldType with
    | .error e => return .error e
    | .ok type =>
      let first ← render column type
      match ← renderEach render columns with
      | .error e => return .error e
      | .ok rest => return .ok (first :: rest)

def fields (table : Table) (case : NameCase) : Except Fault (Except Error (List Field)) :=
  renderEach (fieldOf · case ·) table.columns.toList

def columnDdl (case : NameCase) (column : Column) (type : FieldType) : Except Fault String := do
  let description := match column.comment with
    | some comment => Column.descriptionOption comment
    | none => ""
  return column.nameIn case ++ " " ++ (← sqlType column type.standardName) ++ description

def ddl (table : Table) (case : NameCase) : Except Fault (Except Error String) := do
  let dataset := (table.schemaIn case).getD Table.defaultDataset
  match ← renderEach (columnDdl case) table.columns.toList with
  | .error e => return .error e
  | .ok columns =>
    return .ok ("#standardSQL\nCREATE TABLE `" ++ Table.project ++ "." ++ dataset ++ "." ++
      table.nameIn case ++ "`\n(\n  " ++ ",\n  ".intercalate columns ++ "\n)")

theorem foldl_enclose (element : FieldType) (index inner : Nat) :
    (List.range' index inner).reverse.foldl enclose
        { name := "dimension_" ++ toString (index + inner), type := element, mode := .repeated } =
      Field.dimension element index inner := by
  induction inner generalizing index with
  | zero => rfl
  | succ inner ih =>
    have hlast : index + (inner + 1) = index + 1 + inner := by omega
    rw [List.range'_succ, List.reverse_cons, List.foldl_append, hlast, ih]
    rfl

theorem fieldOf_eq (column : Column) (case : NameCase) (element : FieldType) :
    fieldOf column case element = .ok (column.fieldOf case element) := by
  rw [fieldOf, Column.fieldOf]
  rcases hd : column.dimensions with _ | _ | inner
  · rfl
  · rfl
  · have hmode : column.mode = .repeated := by
      rw [Column.mode, hd]
      rfl
    have hlast : inner + 1 + 1 - 1 = 1 + inner := by omega
    rw [if_neg (by omega), difference_of_le (by omega), ok_bind, hlast, Nat.add_sub_cancel_left,
      hmode]
    dsimp only
    rw [foldl_enclose]
    rfl

theorem sqlType_eq (column : Column) (element : String) :
    sqlType column element = .ok (column.sqlType element) := by
  rw [sqlType, Column.sqlType]
  split
  next => rfl
  next hd =>
    rw [arrayType, BigQuery.arrayType, difference_of_le (by omega), ok_bind, List.range'_eq_map_range,
      List.map_map]
    have hindex : (fun index => "STRUCT<dimension_" ++ toString index ++ " ARRAY<") ∘ (1 + ·) =
        fun k : Nat => "STRUCT<dimension_" ++ toString (k + 1) ++ " ARRAY<" := by
      funext k
      simp [Nat.add_comm]
    rw [hindex]
    rfl

theorem renderEach_eq {render : Column → FieldType → Except Fault α} {f : Column → FieldType → α}
    (h : ∀ column type, render column type = .ok (f column type)) (columns : List Column) :
    renderEach render columns = .ok (columns.mapM fun column => f column <$> column.fieldType) := by
  induction columns with
  | nil => rfl
  | cons column columns ih =>
    rw [renderEach, List.mapM_cons]
    cases column.fieldType with
    | error e => rfl
    | ok type =>
      dsimp only
      rw [h, ok_bind, ih, ok_bind]
      cases columns.mapM fun column => f column <$> column.fieldType <;> rfl

theorem fields_eq (table : Table) (case : NameCase) :
    fields table case = .ok (table.fields case) := renderEach_eq (fun _ _ => fieldOf_eq ..) _

/-- The line of a column whose elements have a type. -/
def line (case : NameCase) (column : Column) (type : FieldType) : String :=
  column.nameIn case ++ " " ++ column.sqlType type.standardName ++
    match column.comment with
    | some comment => Column.descriptionOption comment
    | none => ""

theorem columnDdl_eq (case : NameCase) (column : Column) (type : FieldType) :
    columnDdl case column type = .ok (line case column type) := by
  rw [columnDdl, sqlType_eq]
  rfl

theorem ddl_eq (table : Table) (case : NameCase) : ddl table case = .ok (table.ddl case) := by
  have hlines : table.columns.toList.mapM (fun column => line case column <$> column.fieldType) =
      table.columns.toList.mapM (·.ddl case) := rfl
  rw [ddl, renderEach_eq (columnDdl_eq case), hlines, ok_bind, Table.ddl]
  cases table.columns.toList.mapM (·.ddl case) <;> rfl

-- ---------------------------------------------------------------------------
-- Conversions
-- ---------------------------------------------------------------------------

/-- Reads a text and renders the table that it declares in both forms. -/
def convert (text : String) (dialect : Option Dialect) (fieldCase ddlCase : NameCase) :
    Except Fault (Except Error (Table × Except Error (List Field) × Except Error String)) := do
  match ← parse text dialect with
  | .error e => return .error e
  | .ok table => return .ok (table, ← fields table fieldCase, ← ddl table ddlCase)

/-- No check fails on any text. -/
theorem convert_eq (text : String) (dialect : Option Dialect) (fieldCase ddlCase : NameCase) :
    convert text dialect fieldCase ddlCase =
      .ok ((Table.parse text dialect).map fun table =>
        (table, table.fields fieldCase, table.ddl ddlCase)) := by
  rw [convert, parse_eq, ok_bind]
  cases Table.parse text dialect with
  | error e => rfl
  | ok table =>
    dsimp only
    rw [fields_eq, ok_bind, ddl_eq, ok_bind]
    rfl

end TableSchema.Checked
