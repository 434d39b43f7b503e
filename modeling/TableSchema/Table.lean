import TableSchema.ColumnMap
import TableSchema.Statement

/-!
# Tables

What a statement declares: its columns, with the table constraints worked into them, and the
constraints themselves.
-/

namespace TableSchema

structure Table where
  schema : Option String
  name : String
  temporary : Bool
  columns : ColumnMap
  constraints : List Constraint
  dialect : Option Dialect
  deriving DecidableEq, Repr

/-- What a table constraint makes of each column it lists. It only ever sets flags. -/
def ConstraintKind.mark : ConstraintKind → Column → Column
  | primaryKey, column => column.setPrimaryKey true
  | unique, column => column.setUnique true
  | notNull, column => column.setNotNull true
  | foreignKey, column => column

namespace ColumnMap

def markColumn (kind : ConstraintKind) (columns : ColumnMap) (name : String) :
    Except Error ColumnMap :=
  if columns.contains name then .ok (columns.modify name kind.mark)
  else .error (.unknownColumn name kind)

def constrain (columns : ColumnMap) (constraint : Constraint) : Except Error ColumnMap :=
  constraint.columns.foldlM (markColumn constraint.kind) columns

/-- Works table constraints into the columns, in order. The first column that does not exist stops
it. -/
def resolve (columns : ColumnMap) (constraints : List Constraint) : Except Error ColumnMap :=
  constraints.foldlM constrain columns

end ColumnMap

def Item.column? : Item → Option ColumnDefinition
  | column definition => some definition
  | constraint _ => none

def Item.constraint? : Item → Option Constraint
  | column _ => none
  | constraint c => some c

namespace Table

def ofStatement (statement : Statement) (dialect : Option Dialect) : Except Error Table := do
  let declared := ColumnMap.ofList
    ((statement.items.filterMap (·.column?)).map fun definition => .ofDefinition definition dialect)
  let constraints := statement.items.filterMap (·.constraint?)
  let columns ← declared.resolve constraints
  return {
    schema := statement.name.schema
    name := statement.name.name
    temporary := statement.temporary
    columns
    constraints
    dialect }

/-- Reads the table that a text declares. -/
def parse (text : String) (dialect : Option Dialect) : Except Error Table :=
  if Text.isBlankText text.toList then .error .missingInput
  else
    match Statement.read text with
    | .error e => .error (.parse { e with dialect })
    | .ok statement => ofStatement statement dialect

def foreignKeys (table : Table) : List Constraint :=
  table.constraints.filter (·.kind = .foreignKey)

/-- Changes the dialect of the table and of its columns. -/
def withDialect (table : Table) (dialect : Option Dialect) : Table :=
  { table with dialect, columns := table.columns.map (·.withDialect dialect) }

def nameIn (table : Table) (case : NameCase) : String := case.apply table.name

def schemaIn (table : Table) (case : NameCase) : Option String := table.schema.map case.apply

end Table

end TableSchema
