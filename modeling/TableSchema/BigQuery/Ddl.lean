import TableSchema.BigQuery.Schema

/-!
# Tables in standard SQL

A table as a `CREATE TABLE` statement of BigQuery. It lies in the data set named after its schema.
-/

namespace TableSchema

/-- The type of an array: a `STRUCT` around every dimension but the outermost. -/
def BigQuery.arrayType (element : String) (dimensions : Nat) : String :=
  let inner := (List.range (dimensions - 1)).map fun k =>
    "STRUCT<dimension_" ++ toString (k + 1) ++ " ARRAY<"
  "ARRAY<" ++ String.join inner ++ element ++ ">" ++
    String.join (List.replicate (dimensions - 1) ">>")

namespace Column

def sqlType (column : Column) (element : String) : String :=
  if column.dimensions = 0 then element ++ if column.notNull then " NOT NULL" else ""
  else BigQuery.arrayType element column.dimensions

/-- The option that holds a description, whose double quotes get a backslash. -/
def descriptionOption (description : String) : String :=
  let escaped := description.toList.flatMap fun c => if c = '"' then ['\\', '"'] else [c]
  " OPTIONS (description = \"" ++ String.ofList escaped ++ "\")"

def ddl (column : Column) (case : NameCase) : Except Error String := do
  let type ← column.fieldType
  let description := match column.comment with
    | some comment => descriptionOption comment
    | none => ""
  return column.nameIn case ++ " " ++ column.sqlType type.standardName ++ description

end Column

namespace Table

/-- The project that stands for the reader's own. -/
def project : String := "project"

/-- The data set of a table without a schema. -/
def defaultDataset : String := "dataset"

def ddl (table : Table) (case : NameCase) : Except Error String := do
  let columns ← table.columns.toList.mapM (·.ddl case)
  let dataset := (table.schemaIn case).getD defaultDataset
  return "#standardSQL\nCREATE TABLE `" ++ project ++ "." ++ dataset ++ "." ++ table.nameIn case ++
    "`\n(\n  " ++ ",\n  ".intercalate columns ++ "\n)"

end Table

end TableSchema
