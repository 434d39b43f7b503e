import TableSchema.Table

/-!
# Sessions

A text and a dialect that are set separately, and read together when asked for.
-/

namespace TableSchema

structure Session where
  ddl : Option String := none
  dialect : Option Dialect := none
  deriving DecidableEq, Repr

/-- Reads the table of the text that is set. A session without a text has no input. -/
def Session.parse (session : Session) : Except Error Table :=
  match session.ddl with
  | some ddl => Table.parse ddl session.dialect
  | none => .error .missingInput

end TableSchema
