import TableSchema.BigQuery.Schema

/-!
# Summaries of tables

A summary for readers: a title, where the table comes from, a row for each column and the foreign
keys. Names and types are padded to the widest, in characters, so that the arrows stand in one line.
A column without a BigQuery type shows a question mark and, unless warnings are off, a warning below
its row. There is no summary of a column that is too wide to be padded.

The colours of a summary on a terminal are left out: this is what is written to a file or a pipe.
-/

namespace TableSchema

/-- A table with the name of the source it was read from. -/
structure SourcedTable where
  source : String
  table : Table

/-- The source type as declared: its length and scale, its sign and its dimensions. -/
def Column.declaredType (column : Column) : String :=
  let length := match column.length, column.scale with
    | some length, some scale => "(" ++ length.text ++ "," ++ toString scale ++ ")"
    | some length, none => "(" ++ length.text ++ ")"
    | none, _ => ""
  column.dataType ++ length ++ (if column.unsigned then " UNSIGNED" else "") ++
    String.join (List.replicate column.dimensions "[]")

namespace Summary

/-- A text is to be padded to more than the greatest width. -/
structure WidthError where
  deriving DecidableEq, Repr

def WidthError.message (_ : WidthError) : String := "Formatting argument out of range"

def maxWidth : Nat := 65535

def padTo (width : Nat) (text : String) : Except WidthError String :=
  if width ≤ maxWidth then .ok (text ++ String.ofList (List.replicate (width - text.length) ' '))
  else .error {}

def widest (texts : List String) : Nat := (texts.map (·.length)).foldl max 0

/-- What a row says about a column. -/
structure Row where
  name : String
  sourceType : String
  target : Option String
  constraint : String
  description : Option String

namespace Row

def ofColumn (case : NameCase) (column : Column) : Row where
  name := column.nameIn case
  sourceType := column.declaredType
  target := match column.fieldType with
    | .ok type => some (type.name ++ " " ++ column.mode.name)
    | .error _ => none
  constraint := column.constraintText
  description := column.comment

/-- The line of a row, its first two cells padded to the given widths. -/
def line (nameWidth typeWidth : Nat) (row : Row) : Except WidthError String := do
  let name ← padTo nameWidth row.name
  let sourceType ← padTo typeWidth row.sourceType
  let constraint := if row.constraint = "" then "" else "  [" ++ row.constraint ++ "]"
  let description := match row.description with
    | some description => "  \"" ++ description ++ "\""
    | none => ""
  return "  " ++ name ++ "  " ++ sourceType ++ "  -> " ++ row.target.getD "?" ++ constraint ++
    description

def warning (row : Row) : String := "    warning: no BigQuery type for " ++ row.sourceType

/-- The line of a row, without white space at its end, and the warning below it. -/
def lines (quiet : Bool) (nameWidth typeWidth : Nat) (row : Row) :
    Except WidthError (List String) := do
  let line ← row.line nameWidth typeWidth
  return String.ofList (Text.trimEnd line.toList) ::
    if row.target.isNone && !quiet then [row.warning] else []

end Row

def title (table : Table) (case : NameCase) : String :=
  let name := match table.schemaIn case with
    | some schema => schema ++ "." ++ table.nameIn case
    | none => table.nameIn case
  if table.temporary then name ++ " (temporary)" else name

def rule : String := String.ofList (List.replicate 50 '═')

def headerLines (sourced : SourcedTable) (case : NameCase) : List String :=
  [title sourced.table case, rule, "Source: " ++ sourced.source] ++
    (match sourced.table.dialect with
      | some dialect => ["Dialect: " ++ dialect.name]
      | none => []) ++
    [""]

def columnLines (table : Table) (case : NameCase) (quiet : Bool) :
    Except WidthError (List String) := do
  let rows := table.columns.toList.map (Row.ofColumn case)
  let nameWidth := widest (rows.map (·.name))
  let typeWidth := widest (rows.map (·.sourceType))
  let lines ← rows.mapM (·.lines quiet nameWidth typeWidth)
  return ("Columns (" ++ toString rows.length ++ "):") :: lines.flatten

def foreignKeyLine (constraint : Constraint) : String :=
  let target := match constraint.references with
    | some r => " -> " ++ r.table ++ "(" ++ ", ".intercalate r.columns ++ ")"
    | none => ""
  "  (" ++ ", ".intercalate constraint.columns ++ ")" ++ target

def foreignKeyLines (table : Table) : List String :=
  let lines := table.foreignKeys.map foreignKeyLine
  if lines.isEmpty then [] else "" :: "Foreign keys:" :: lines

def tableLines (case : NameCase) (quiet : Bool) (sourced : SourcedTable) :
    Except WidthError (List String) := do
  let columns ← columnLines sourced.table case quiet
  return headerLines sourced case ++ columns ++ foreignKeyLines sourced.table

/-- Lines as a text. Every line ends in a line feed. -/
def textOf (lines : List String) : String := String.join (lines.map (· ++ "\n"))

end Summary

/-- The summaries of tables, an empty line between them, if every row can be padded. -/
def summary (tables : List SourcedTable) (case : NameCase) (quiet : Bool) :
    Except Summary.WidthError String := do
  let summaries ← tables.mapM (Summary.tableLines case quiet)
  return "\n".intercalate (summaries.map Summary.textOf)

end TableSchema
