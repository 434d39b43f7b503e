import TableSchema.Statement.Attributes
import TableSchema.Statement.Constraint

/-!
# Table items

An item of a table is first tried as one that is dropped, then as a constraint, then as a column.
-/

namespace TableSchema

structure ColumnDefinition where
  name : String
  type : TypeSpec
  attributes : ColumnAttributes
  deriving DecidableEq, Repr

inductive Item where
  | column (definition : ColumnDefinition)
  | constraint (constraint : Constraint)
  deriving DecidableEq, Repr

open Rule

namespace ColumnDefinition

def rule : Rule ColumnDefinition := do
  let name ← (identifier []).orMiss .columnDefinition
  let type ← TypeSpec.rule.orMiss .dataType
  let attributes ← ColumnAttributes.rule
  return { name, type, attributes }

end ColumnDefinition

namespace Item

/-- A parenthesis opens next. -/
def groupAhead : Rule Unit := ifAhead (symbol "(") (pure ()) never

/-- A check, which may have a name. -/
def check : Rule Unit := do
  let _ ← ifPresent (keyword "CONSTRAINT") (some <$> identifier []) (pure none)
  keyword "CHECK"
  groupAhead
  restOfItem

/-- The declaration of an index, which may have a name. -/
def index : Rule Unit := do
  let _ ← present (anyKeyword ["FULLTEXT", "SPATIAL"])
  anyKeyword ["KEY", "INDEX"]
  let _ ← ifAhead (symbol "(") (pure none) (some <$> identifier [])
  groupAhead
  restOfItem

/-- An item that is recognized and carries nothing that is kept. -/
def dropped : Rule Unit := check <|> index

def rule : Rule (Option Item) :=
  dropped *> pure none <|>
  (fun c => some (constraint c)) <$> Constraint.rule <|>
  (fun d => some (column d)) <$> ColumnDefinition.rule

/-- One round of the items of a table: an item is read unless the table closes, and another round
follows a comma. So a comma may stand before the closing parenthesis. -/
def round (items : List Item) : Rule (Round (List Item) (List Item)) :=
  ifAhead (symbol ")") (pure (.finish items)) do
    let item ← rule
    let items := items ++ item.toList
    ifPresent (symbol ",") (pure (.again items)) (pure (.finish items))

theorem advances_round (items : List Item) : (round items).Advances :=
  advances_ifAhead (advances_finish items)
    (advances_bind fun _ => advances_ifPresent (consumes_symbol (by decide)) _ _)

def list : Rule (List Item) := do
  (symbol "(").orMiss .openParenthesis
  let items ← loop round advances_round []
  (symbol ")").orMiss .commaOrClose
  return items

end Item

end TableSchema
