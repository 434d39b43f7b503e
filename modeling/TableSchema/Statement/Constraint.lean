import TableSchema.Constraint
import TableSchema.Token
import TableSchema.Unicode.Case

/-!
# Constraint items

Constraints that stand between columns in a table, down to the target of a foreign key.
-/

namespace TableSchema

open Rule

/-- The name of a table. Its schema is all that stands before the last dot. -/
structure QualifiedName where
  schema : Option String
  name : String
  deriving DecidableEq, Repr

namespace QualifiedName

def ofParts (parts : List String) : QualifiedName where
  schema := if parts.dropLast.isEmpty then none else some (".".intercalate parts.dropLast)
  name := parts.getLastD ""

def text (name : QualifiedName) : String :=
  match name.schema with
  | some schema => schema ++ "." ++ name.name
  | none => name.name

/-- Reads parts that dots separate. Bare parts may hold `extra` characters. -/
def rule (extra : List Char) : Rule QualifiedName :=
  ofParts <$> separated ((identifier extra).orMiss .tableName) (symbol ".")
    (consumes_symbol (by decide))

end QualifiedName

/-- The length of an index on the front of a column, as in `name(10)`. -/
def indexLength : Rule Unit := do
  symbol "("
  let _ ← number
  symbol ")"

def indexedColumn : Rule String := do
  let column ← (identifier []).orMiss .columnName
  let _ ← present indexLength
  let _ ← present (anyKeyword ["ASC", "DESC"])
  return column

def columnList : Rule (List String) := do
  (symbol "(").orMiss .openParenthesis
  let columns ← separated indexedColumn (symbol ",") (consumes_symbol (by decide))
  (symbol ")").orMiss .commaOrClose
  return columns

namespace ReferentialAction

def rule : Rule ReferentialAction :=
  keyword "RESTRICT" *> pure restrict <|>
  keyword "CASCADE" *> pure cascade <|>
  keywords ["SET", "NULL"] *> pure setNull <|>
  keywords ["NO", "ACTION"] *> pure noAction

end ReferentialAction

namespace Reference

/-- One clause of the form `ON DELETE action` or `ON UPDATE action`. -/
def event (reference : Reference) : Rule Reference := do
  keyword "ON"
  let onDelete ← keyword "DELETE" *> pure true <|> keyword "UPDATE" *> pure false
  let action ← ReferentialAction.rule
  return if onDelete then { reference with onDelete := some action }
    else { reference with onUpdate := some action }

theorem consumes_event (reference : Reference) : (event reference).Consumes :=
  (consumes_keyword (by decide)).bind

def rule : Rule Reference := do
  keyword "REFERENCES"
  let table ← QualifiedName.rule []
  let columns ← ifAhead (symbol "(") columnList (pure [])
  let matchMode ← ifPresent (keyword "MATCH") (option word) (pure none)
  iterate event consumes_event
    { table := table.text, columns, matchMode := matchMode.map Unicode.upperCase }

end Reference

def ConstraintKind.rule : Rule ConstraintKind :=
  keywords ["PRIMARY", "KEY"] *> pure primaryKey <|>
  keyword "UNIQUE" *> present (anyKeyword ["KEY", "INDEX"]) *> pure unique <|>
  keywords ["NOT", "NULL"] *> pure notNull <|>
  keywords ["FOREIGN", "KEY"] *> pure foreignKey

/-- What stands behind the columns of a constraint of a kind. -/
def Reference.ofKind (kind : ConstraintKind) : Rule (Option Reference) :=
  if kind = .foreignKey then option rule else pure none

/-- A constraint up to the end of its item. A name before its kind wins over one behind it. -/
def Constraint.rule : Rule Constraint := do
  let first ← ifPresent (keyword "CONSTRAINT")
    (some <$> (identifier []).orMiss .constraintName) (pure none)
  let kind ← ConstraintKind.rule <|> (if first.isSome then miss .constraintKind else never)
  let second ← ifAhead (symbol "(")
    (pure none) (some <$> (identifier []).orMiss .openParenthesis)
  let columns ← columnList
  let references ← Reference.ofKind kind
  restOfItem
  return { name := first <|> second, kind, columns, references }

end TableSchema
