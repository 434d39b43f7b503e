import TableSchema.Json
import TableSchema.Table

/-!
# Tables in JSON

The model of a table. Values that are absent and lists that may be empty leave no member behind.
-/

namespace TableSchema

def Length.toJson : Length → Json
  | value n => .nat n
  | any => .string "*"

def ConstraintKind.word : ConstraintKind → String
  | primaryKey => "PRIMARY_KEY"
  | unique => "UNIQUE"
  | notNull => "NOT_NULL"
  | foreignKey => "FOREIGN_KEY"

def ReferentialAction.word : ReferentialAction → String
  | restrict => "RESTRICT"
  | cascade => "CASCADE"
  | setNull => "SET_NULL"
  | noAction => "NO_ACTION"

open Json (member?)

def Json.strings (texts : List String) : Json := .array (texts.map .string)

/-- The member of a list, unless the list is empty. -/
def Json.nonempty? (key : String) (values : List Json) : List (String × Json) :=
  if values.isEmpty then [] else [(key, .array values)]

def Reference.toJson (reference : Reference) : Json :=
  .object ([("table", .string reference.table)] ++
    Json.nonempty? "columns" (reference.columns.map .string) ++
    member? "matchMode" (reference.matchMode.map .string) ++
    member? "onDelete" (reference.onDelete.map (.string ·.word)) ++
    member? "onUpdate" (reference.onUpdate.map (.string ·.word)))

def Constraint.toJson (constraint : Constraint) : Json :=
  .object (member? "name" (constraint.name.map .string) ++
    [("kind", .string constraint.kind.word), ("columns", .strings constraint.columns)] ++
    member? "references" (constraint.references.map (·.toJson)))

def Column.toJson (column : Column) : Json :=
  .object ([("name", .string column.name), ("dataType", .string column.dataType)] ++
    member? "length" (column.length.map (·.toJson)) ++
    member? "scale" (column.scale.map .nat) ++
    [("arrayDimensional", .nat column.dimensions),
      ("notNull", .bool column.notNull),
      ("primaryKey", .bool column.primaryKey),
      ("unique", .bool column.unique),
      ("isUnsigned", .bool column.unsigned),
      ("isZerofill", .bool column.zerofill),
      ("autoIncrement", .bool column.autoIncrement),
      ("distkey", .bool column.distKey),
      ("sortkey", .bool column.sortKey)] ++
    member? "characterSet" (column.characterSet.map .string) ++
    member? "encode" (column.encoding.map .string) ++
    member? "default" (column.defaultValue.map .string) ++
    member? "comment" (column.comment.map .string) ++
    member? "sourceDialect" (column.dialect.map (.string ·.name)))

def Table.toJson (table : Table) : Json :=
  .object (member? "schema" (table.schema.map .string) ++
    [("name", .string table.name),
      ("isTemp", .bool table.temporary),
      ("columns", .array (table.columns.toList.map (·.toJson)))] ++
    Json.nonempty? "constraints" (table.constraints.map (·.toJson)) ++
    member? "sourceDialect" (table.dialect.map (.string ·.name)))

end TableSchema
