import TableSchema.Column

/-!
# Columns of a table

Columns in the order of their declaration, looked up by name in any case. A second column of one
name takes the place of the first.
-/

namespace TableSchema

structure ColumnMap where
  /-- Each column with its name in lower case. -/
  entries : List (String × Column) := []
  deriving DecidableEq, Repr

namespace ColumnMap

def keyOf (name : String) : String := Unicode.lowerCase name

@[simp] theorem keyOf_eq (name : String) : keyOf name = Unicode.lowerCase name := rfl

def keys (columns : ColumnMap) : List String := columns.entries.map (·.1)

def toList (columns : ColumnMap) : List Column := columns.entries.map (·.2)

def size (columns : ColumnMap) : Nat := columns.entries.length

def isEmpty (columns : ColumnMap) : Bool := columns.entries.isEmpty

def get? (columns : ColumnMap) (name : String) : Option Column :=
  columns.entries.lookup (keyOf name)

def contains (columns : ColumnMap) (name : String) : Bool := (columns.get? name).isSome

/-- The table has no column of this name. -/
structure Missing where
  name : String
  deriving DecidableEq, Repr

def Missing.message (e : Missing) : String := "no column named '" ++ e.name ++ "'"

def get (columns : ColumnMap) (name : String) : Except Missing Column :=
  match columns.get? name with
  | some column => .ok column
  | none => .error ⟨name⟩

/-- Puts a column under a key: in the place of the one that has it, or at the end. -/
def put (key : String) (column : Column) : List (String × Column) → List (String × Column)
  | [] => [(key, column)]
  | entry :: rest =>
    if entry.1 = key then (key, column) :: rest else entry :: put key column rest

/-- Adds a column and gives the one that it replaces. -/
def insert (columns : ColumnMap) (column : Column) : Option Column × ColumnMap :=
  (columns.get? column.name, ⟨put (keyOf column.name) column columns.entries⟩)

def add (columns : ColumnMap) (column : Column) : ColumnMap := (columns.insert column).2

def ofList (columns : List Column) : ColumnMap := columns.foldl add {}

def modifyKey (key : String) (f : Column → Column) : List (String × Column) → List (String × Column)
  | [] => []
  | entry :: rest =>
    if entry.1 = key then (key, f entry.2) :: rest else entry :: modifyKey key f rest

/-- Changes the column of a name, if there is one. -/
def modify (columns : ColumnMap) (name : String) (f : Column → Column) : ColumnMap :=
  ⟨modifyKey (keyOf name) f columns.entries⟩

def map (columns : ColumnMap) (f : Column → Column) : ColumnMap :=
  ⟨columns.entries.map fun (key, column) => (key, f column)⟩

end ColumnMap

end TableSchema
