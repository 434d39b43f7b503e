import TableSchema.Constraint
import TableSchema.ParseError

/-!
# Errors of conversion

Everything that can stop a text from becoming a BigQuery schema.
-/

namespace TableSchema

inductive Error where
  /-- There is no text, or nothing but white space. -/
  | missingInput
  | parse (e : ParseError)
  /-- A table constraint lists a column that the table does not have. -/
  | unknownColumn (column : String) (kind : ConstraintKind)
  /-- No BigQuery type corresponds to a type, which is given in upper case. -/
  | unknownType (dataType : String)
  deriving DecidableEq, Repr

def Error.message : Error → String
  | missingInput => "DDL is not specified"
  | parse e => e.message
  | unknownColumn column kind =>
    kind.text ++ " constraint references unknown column '" ++ column ++ "'"
  | unknownType dataType => "unknown data type: '" ++ dataType ++ "'"

end TableSchema
