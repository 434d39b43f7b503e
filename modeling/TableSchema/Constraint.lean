/-!
# Table constraints

A constraint that stands as an item of its own in a table, and the table that a foreign key points
to.
-/

namespace TableSchema

inductive ConstraintKind where
  | primaryKey
  | unique
  | notNull
  | foreignKey
  deriving DecidableEq, Repr

def ConstraintKind.text : ConstraintKind → String
  | primaryKey => "PRIMARY KEY"
  | unique => "UNIQUE"
  | notNull => "NOT NULL"
  | foreignKey => "FOREIGN KEY"

inductive ReferentialAction where
  | restrict
  | cascade
  | setNull
  | noAction
  deriving DecidableEq, Repr

/-- The target of a foreign key. The table's name holds its qualifiers; no columns means that the
statement names none. -/
structure Reference where
  table : String
  columns : List String
  matchMode : Option String := none
  onDelete : Option ReferentialAction := none
  onUpdate : Option ReferentialAction := none
  deriving DecidableEq, Repr

structure Constraint where
  name : Option String
  kind : ConstraintKind
  columns : List String
  references : Option Reference := none
  deriving DecidableEq, Repr

end TableSchema
