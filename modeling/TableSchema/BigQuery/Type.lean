/-!
# BigQuery types and modes

The types of legacy SQL, which field lists use, with their names in standard SQL, and the modes of
fields.
-/

namespace TableSchema.BigQuery

inductive FieldType where
  | string
  | integer
  | float
  | numeric
  | datetime
  | timestamp
  | date
  | time
  | boolean
  | bytes
  /-- A structure. Only nested arrays are fields of this type. -/
  | record
  deriving DecidableEq, Repr

namespace FieldType

def name : FieldType → String
  | string => "STRING"
  | integer => "INTEGER"
  | float => "FLOAT"
  | numeric => "NUMERIC"
  | datetime => "DATETIME"
  | timestamp => "TIMESTAMP"
  | date => "DATE"
  | time => "TIME"
  | boolean => "BOOLEAN"
  | bytes => "BYTES"
  | record => "RECORD"

/-- The name in standard SQL, which differs for three types. -/
def standardName : FieldType → String
  | integer => "INT64"
  | float => "FLOAT64"
  | boolean => "BOOL"
  | type => type.name

def ofName? : String → Option FieldType
  | "STRING" => some string
  | "INTEGER" => some integer
  | "FLOAT" => some float
  | "NUMERIC" => some numeric
  | "DATETIME" => some datetime
  | "TIMESTAMP" => some timestamp
  | "DATE" => some date
  | "TIME" => some time
  | "BOOLEAN" => some boolean
  | "BYTES" => some bytes
  | "RECORD" => some record
  | _ => none

theorem ofName?_name (type : FieldType) : ofName? type.name = some type := by
  cases type <;> rfl

end FieldType

inductive Mode where
  | required
  | nullable
  | repeated
  deriving DecidableEq, Repr

namespace Mode

def name : Mode → String
  | required => "REQUIRED"
  | nullable => "NULLABLE"
  | repeated => "REPEATED"

def ofName? : String → Option Mode
  | "REQUIRED" => some required
  | "NULLABLE" => some nullable
  | "REPEATED" => some repeated
  | _ => none

theorem ofName?_name (mode : Mode) : ofName? mode.name = some mode := by cases mode <;> rfl

/-- Arrays are repeated, whether or not they may be null. -/
def ofColumn (dimensions : Nat) (notNull : Bool) : Mode :=
  if dimensions > 0 then repeated else if notNull then required else nullable

end Mode

end TableSchema.BigQuery
