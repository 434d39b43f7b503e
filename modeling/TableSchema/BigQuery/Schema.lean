import TableSchema.BigQuery.Field
import TableSchema.Table

/-!
# Field lists of tables

Each column becomes one field. BigQuery has no arrays of arrays, so each further dimension of an
array becomes a repeated record around the next: `dimension_1` and so on, from the outside in. The
innermost one has the type of the elements.
-/

namespace TableSchema

open BigQuery

namespace BigQuery.Field

/-- The field of the dimension `index`, with `inner` more dimensions inside it. -/
def dimension (element : FieldType) (index : Nat) : (inner : Nat) → Field
  | 0 => { name := "dimension_" ++ toString index, type := element, mode := .repeated }
  | inner + 1 =>
    { name := "dimension_" ++ toString index
      type := .record
      mode := .repeated
      fields := [dimension element (index + 1) inner] }

end BigQuery.Field

namespace Column

def nameIn (column : Column) (case : NameCase) : String := case.apply column.name

/-- The field of a column whose elements have a type. -/
def fieldOf (column : Column) (case : NameCase) (element : FieldType) : Field :=
  let field : Field :=
    { name := column.nameIn case
      type := element
      mode := column.mode
      description := column.comment }
  match column.dimensions with
  | 0 | 1 => field
  | inner + 2 => { field with type := .record, fields := [.dimension element 1 inner] }

def field (column : Column) (case : NameCase) : Except Error Field :=
  (column.fieldOf case ·) <$> column.fieldType

end Column

/-- The fields of columns, in order. The first column without a BigQuery type stops it. -/
def ColumnMap.fields (columns : ColumnMap) (case : NameCase) : Except Error (List Field) :=
  columns.toList.mapM (·.field case)

def Table.fields (table : Table) (case : NameCase) : Except Error (List Field) :=
  table.columns.fields case

namespace BigQuery

/-- A field list as JSON. -/
def schemaJson (fields : List Field) : Json := .array (Field.listToJson fields)

end BigQuery

end TableSchema
