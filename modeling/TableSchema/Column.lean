import TableSchema.BigQuery.TypeMap
import TableSchema.CommentClause
import TableSchema.NameCase
import TableSchema.Statement.Item

/-!
# Columns

A column of a table, made from its definition or from a name and a type. The setters keep a primary
key not null.
-/

namespace TableSchema

structure Column where
  name : String
  /-- The source type in upper case, its words joined by spaces. -/
  dataType : String
  length : Option Length := none
  /-- The scale, unless it is zero. -/
  scale : Option Nat := none
  dimensions : Nat := 0
  notNull : Bool := false
  primaryKey : Bool := false
  unique : Bool := false
  unsigned : Bool := false
  zerofill : Bool := false
  autoIncrement : Bool := false
  distKey : Bool := false
  sortKey : Bool := false
  characterSet : Option String := none
  encoding : Option String := none
  defaultValue : Option String := none
  comment : Option String := none
  dialect : Option Dialect := none
  deriving DecidableEq, Repr

namespace Column

def typeName (words : List String) : String := " ".intercalate (words.map Unicode.upperCase)

/-- A column that may be null, with the words of its type in one text. -/
def new (name dataType : String) : Column :=
  { name, dataType := typeName ((Text.words dataType.toList).map String.ofList) }

def withLength (column : Column) (length : Length) (scale : Option Nat) : Column :=
  { column with length := some length, scale := scale.filter (· ≠ 0) }

def withDimensions (column : Column) (dimensions : Nat) : Column := { column with dimensions }

def withDialect (column : Column) (dialect : Option Dialect) : Column := { column with dialect }

def ofDefinition (definition : ColumnDefinition) (dialect : Option Dialect) : Column :=
  let type := definition.type
  let attributes := definition.attributes
  let primaryKey := attributes.key == some .primary
  { name := definition.name
    dataType := typeName type.words
    length := type.length
    scale := if type.length.isSome then type.scale.filter (· ≠ 0) else none
    dimensions := type.dimensions
    notNull := primaryKey || attributes.nullability == some .notNull
    primaryKey
    unique := attributes.key == some .unique
    unsigned := type.unsigned
    zerofill := type.zerofill
    autoIncrement := attributes.autoIncrement
    distKey := attributes.distKey
    sortKey := attributes.sortKey
    characterSet := attributes.characterSet
    encoding := attributes.encoding
    defaultValue := attributes.defaultValue
    comment := attributes.comment
    dialect }

/-- A column that may be null is no primary key. -/
def setNotNull (column : Column) (notNull : Bool) : Column :=
  { column with notNull, primaryKey := column.primaryKey && notNull }

/-- A primary key is not null. -/
def setPrimaryKey (column : Column) (primaryKey : Bool) : Column :=
  { column with primaryKey, notNull := column.notNull || primaryKey }

def setUnique (column : Column) (unique : Bool) : Column := { column with unique }

def setComment (column : Column) (comment : Option String) : Column := { column with comment }

/-- Reads the key flags and the comment from free text, in any case. -/
def setConstraint (column : Column) (text : String) : Column :=
  let holds (words : String) :=
    Text.occursIn words.toList (Unicode.upperCase text).toList
  let primaryKey := holds "PRIMARY KEY"
  { column with
    primaryKey
    notNull := primaryKey || holds "NOT NULL"
    unique := holds "UNIQUE"
    comment := CommentClause.find text }

/-- The key flags as text. A primary key is not said to be not null as well. -/
def constraintText (column : Column) : String :=
  " ".intercalate
    ((if column.primaryKey then ["PRIMARY KEY"] else if column.notNull then ["NOT NULL"] else []) ++
      if column.unique then ["UNIQUE"] else [])

def fieldType (column : Column) : Except Error BigQuery.FieldType :=
  BigQuery.fieldType column.dataType column.length column.scale column.dialect

def mode (column : Column) : BigQuery.Mode := .ofColumn column.dimensions column.notNull

/-- A change of a column in place. None changes its name or its type. -/
inductive Edit where
  | notNull (value : Bool)
  | primaryKey (value : Bool)
  | unique (value : Bool)
  | comment (value : Option String)
  | constraint (text : String)
  | dialect (value : Option Dialect)

def edit (column : Column) : Edit → Column
  | .notNull value => column.setNotNull value
  | .primaryKey value => column.setPrimaryKey value
  | .unique value => column.setUnique value
  | .comment value => column.setComment value
  | .constraint text => column.setConstraint text
  | .dialect value => column.withDialect value

end Column

end TableSchema
