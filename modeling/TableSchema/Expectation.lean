/-!
# What a statement requires

Each place of a `CREATE TABLE` statement that something must fill, and how messages name it.
-/

namespace TableSchema

inductive Expectation where
  | createKeyword
  | tableKeyword
  | tableName
  | openParenthesis
  | commaOrClose
  | constraintName
  | constraintKind
  | columnName
  | columnDefinition
  | dataType
  | closingQuote
  deriving DecidableEq, Repr

namespace Expectation

def text : Expectation → String
  | createKeyword => "CREATE"
  | tableKeyword => "TABLE"
  | tableName => "table name"
  | openParenthesis => "'('"
  | commaOrClose => "',' or ')'"
  | constraintName => "constraint name"
  | constraintKind => "PRIMARY KEY, UNIQUE, NOT NULL or FOREIGN KEY"
  | columnName => "column name"
  | columnDefinition => "column definition"
  | dataType => "data type"
  | closingQuote => "closing quote"

/-- The two words that make a statement a `CREATE TABLE` statement. -/
def isKeyword : Expectation → Bool
  | createKeyword | tableKeyword => true
  | _ => false

end Expectation

end TableSchema
