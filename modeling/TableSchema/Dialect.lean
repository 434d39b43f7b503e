/-!
# Source dialects

The dialect a statement was written in. It never affects how the statement is read, only which
BigQuery type some of its types become. No dialect means generic SQL.
-/

namespace TableSchema

inductive Dialect where
  | mysql
  | postgresql
  | oracle
  | redshift
  deriving DecidableEq, Repr

namespace Dialect

def name : Dialect → String
  | mysql => "mysql"
  | postgresql => "postgresql"
  | oracle => "oracle"
  | redshift => "redshift"

/-- Reads a name in lower case. PostgreSQL also goes by its short name. -/
def ofName? : String → Option Dialect
  | "mysql" => some mysql
  | "postgresql" | "postgres" => some postgresql
  | "oracle" => some oracle
  | "redshift" => some redshift
  | _ => none

/-- No dialect has this name, which is given in lower case. -/
structure Unknown where
  name : String
  deriving DecidableEq, Repr

def Unknown.message (e : Unknown) : String := "unknown dialect: '" ++ e.name ++ "'"

/-- Reads a name in any ASCII case. -/
def parse (text : String) : Except Unknown Dialect :=
  let lower := String.ofList (text.toList.map Char.toLower)
  match ofName? lower with
  | some dialect => .ok dialect
  | none => .error ⟨lower⟩

theorem ofName?_name (d : Dialect) : ofName? d.name = some d := by cases d <;> rfl

end Dialect

end TableSchema
