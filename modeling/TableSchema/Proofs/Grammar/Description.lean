import TableSchema.Proofs.Grammar.Reads

/-!
# Descriptions of tables

A `TableDescription` is a statement as someone writes it: which of its optional parts are there, in
which words, and between which quotes. `lexemes` writes a description down; `statement` is what it
says. The types hold what the grammar takes of columns and constraints with quoted names and nothing
else, so every description can be written.
-/

namespace TableSchema

structure QuotedName where
  quote : NameQuote
  text : String
  deriving DecidableEq, Repr

def QuotedName.lexemes (name : QuotedName) : List Lexeme := [.name name.quote name.text]

def keywordLexemes (words : List String) : List Lexeme := words.map .keyword

/-- The lexemes of something that may be left out. -/
def lexemesIf (present : Bool) (words : List String) : List Lexeme :=
  if present then keywordLexemes words else []

/-- A list of names in parentheses. -/
def namesInParentheses (names : OneOrMore QuotedName) : List Lexeme :=
  .symbol .openParenthesis ::
    (names.joined .comma QuotedName.lexemes ++ [.symbol .closeParenthesis])

-- ---------------------------------------------------------------------------
-- Columns
-- ---------------------------------------------------------------------------

/-- A length in parentheses: a number or, where there is none, a star; then perhaps a scale. -/
structure LengthDescription where
  length : Option Digits
  scale : Option Digits

namespace LengthDescription

def numberLexeme (d : LengthDescription) : Lexeme :=
  match d.length with
  | some digits => .word (Digits.word digits)
  | none => .symbol .star

def scaleLexemes (d : LengthDescription) : List Lexeme :=
  match d.scale with
  | some digits => [.symbol .comma, .word (Digits.word digits)]
  | none => []

def lexemes (d : LengthDescription) : List Lexeme :=
  .symbol .openParenthesis :: d.numberLexeme :: (d.scaleLexemes ++ [.symbol .closeParenthesis])

def number (d : LengthDescription) : Length :=
  match d.length with
  | some digits => .value (Digits.value digits)
  | none => .any

def value (d : LengthDescription) : Length × Option Nat := (d.number, d.scale.map Digits.value)

end LengthDescription

inductive TypeFlag where
  | unsigned
  | zerofill
  deriving DecidableEq, Repr

def TypeFlag.keyword : TypeFlag → String
  | unsigned => "UNSIGNED"
  | zerofill => "ZEROFILL"

/-- A type word, the words that extend it, a length, flags and array brackets. -/
structure TypeDescription where
  word : Word
  modifiers : List { m // m ∈ TypeSpec.modifiers }
  length : Option LengthDescription
  flags : List TypeFlag
  nodup : flags.Nodup
  dimensions : Nat

namespace TypeDescription

def modifierLexemes (d : TypeDescription) : List Lexeme :=
  d.modifiers.flatMap (keywordLexemes ·.val)

def lengthLexemes (d : TypeDescription) : List Lexeme := d.length.elim [] LengthDescription.lexemes

def flagLexemes (d : TypeDescription) : List Lexeme := d.flags.map (.keyword ·.keyword)

def bracketLexemes (d : TypeDescription) : List Lexeme :=
  (List.replicate d.dimensions [Lexeme.symbol .openBracket, .symbol .closeBracket]).flatten

def lexemes (d : TypeDescription) : List Lexeme :=
  .word d.word :: (d.modifierLexemes ++ (d.lengthLexemes ++ (d.flagLexemes ++ d.bracketLexemes)))

def type (d : TypeDescription) : TypeSpec where
  words := d.word.text :: d.modifiers.flatMap (·.val)
  length := d.length.map (·.number)
  scale := d.length.bind fun length => length.scale.map Digits.value
  unsigned := d.flags.contains .unsigned
  zerofill := d.flags.contains .zerofill
  dimensions := d.dimensions

end TypeDescription

def KeyMarker.keywords : KeyMarker → List String
  | primary => ["PRIMARY", "KEY"]
  | unique => ["UNIQUE"]

structure ColumnDescription where
  name : QuotedName
  type : TypeDescription
  notNull : Bool
  key : Option KeyMarker

namespace ColumnDescription

def lexemes (d : ColumnDescription) : List Lexeme :=
  d.name.lexemes ++ (d.type.lexemes ++ (lexemesIf d.notNull ["NOT", "NULL"] ++
    keywordLexemes (d.key.elim [] KeyMarker.keywords)))

def definition (d : ColumnDescription) : ColumnDefinition where
  name := d.name.text
  type := d.type.type
  attributes := { nullability := if d.notNull then some .notNull else none, key := d.key }

end ColumnDescription

-- ---------------------------------------------------------------------------
-- Constraints
-- ---------------------------------------------------------------------------

def ReferentialAction.keywords : ReferentialAction → List String
  | restrict => ["RESTRICT"]
  | cascade => ["CASCADE"]
  | setNull => ["SET", "NULL"]
  | noAction => ["NO", "ACTION"]

structure ReferenceDescription where
  parts : OneOrMore QuotedName
  columns : OneOrMore QuotedName
  matchMode : Option Word
  onDelete : Option ReferentialAction
  onUpdate : Option ReferentialAction

def OneOrMore.texts (names : OneOrMore QuotedName) : List String := names.toList.map (·.text)

/-- An event of a reference and what it does. -/
def eventLexemes (event : String) (action : Option ReferentialAction) : List Lexeme :=
  keywordLexemes (action.elim [] fun a => "ON" :: event :: a.keywords)

namespace ReferenceDescription

def matchLexemes (d : ReferenceDescription) : List Lexeme :=
  d.matchMode.elim [] fun mode => [.keyword "MATCH", .word mode]

def lexemes (d : ReferenceDescription) : List Lexeme :=
  .keyword "REFERENCES" :: (d.parts.joined .dot QuotedName.lexemes ++
    (namesInParentheses d.columns ++ (d.matchLexemes ++
    (eventLexemes "DELETE" d.onDelete ++ eventLexemes "UPDATE" d.onUpdate))))

def reference (d : ReferenceDescription) : Reference where
  table := (QualifiedName.ofParts d.parts.texts).text
  columns := d.columns.texts
  matchMode := (d.matchMode.map (·.text)).map Unicode.upperCase
  onDelete := d.onDelete
  onUpdate := d.onUpdate

end ReferenceDescription

inductive ConstraintDescription.Kind where
  | primaryKey
  | unique
  | notNull
  | foreignKey (references : Option ReferenceDescription)

namespace ConstraintDescription.Kind

def keywords : Kind → List String
  | primaryKey => ["PRIMARY", "KEY"]
  | unique => ["UNIQUE"]
  | notNull => ["NOT", "NULL"]
  | foreignKey _ => ["FOREIGN", "KEY"]

def kind : Kind → ConstraintKind
  | primaryKey => .primaryKey
  | unique => .unique
  | notNull => .notNull
  | foreignKey _ => .foreignKey

def references? : Kind → Option ReferenceDescription
  | foreignKey references => references
  | _ => none

end ConstraintDescription.Kind

structure ConstraintDescription where
  name : Option QuotedName
  kind : ConstraintDescription.Kind
  columns : OneOrMore QuotedName

namespace ConstraintDescription

def nameLexemes (d : ConstraintDescription) : List Lexeme :=
  d.name.elim [] fun name => .keyword "CONSTRAINT" :: name.lexemes

def lexemes (d : ConstraintDescription) : List Lexeme :=
  d.nameLexemes ++ (keywordLexemes d.kind.keywords ++ (namesInParentheses d.columns ++
    d.kind.references?.elim [] ReferenceDescription.lexemes))

def constraint (d : ConstraintDescription) : Constraint where
  name := d.name.map (·.text)
  kind := d.kind.kind
  columns := d.columns.texts
  references := d.kind.references?.map (·.reference)

end ConstraintDescription

-- ---------------------------------------------------------------------------
-- Tables
-- ---------------------------------------------------------------------------

inductive ItemDescription where
  | column (description : ColumnDescription)
  | constraint (description : ConstraintDescription)

namespace ItemDescription

def lexemes : ItemDescription → List Lexeme
  | column d => d.lexemes
  | constraint d => d.lexemes

def item : ItemDescription → Item
  | column d => .column d.definition
  | constraint d => .constraint d.constraint

end ItemDescription

inductive Scope where
  | globalScope
  | localScope
  deriving DecidableEq, Repr

def Scope.keyword : Scope → String
  | globalScope => "GLOBAL"
  | localScope => "LOCAL"

inductive Duration where
  | temp
  | temporary
  deriving DecidableEq, Repr

def Duration.keyword : Duration → String
  | temp => "TEMP"
  | temporary => "TEMPORARY"

structure TableDescription where
  scope : Option Scope
  duration : Option Duration
  ifNotExists : Bool
  parts : OneOrMore QuotedName
  items : OneOrMore ItemDescription

namespace TableDescription

def lexemes (d : TableDescription) : List Lexeme :=
  .keyword "CREATE" :: (keywordLexemes (d.scope.elim [] ([·.keyword])) ++
    (keywordLexemes (d.duration.elim [] ([·.keyword])) ++
    (.keyword "TABLE" :: (lexemesIf d.ifNotExists ["IF", "NOT", "EXISTS"] ++
    (d.parts.joined .dot QuotedName.lexemes ++
    (.symbol .openParenthesis :: (d.items.joined .comma ItemDescription.lexemes ++
      [.symbol .closeParenthesis])))))))

def statement (d : TableDescription) : Statement where
  temporary := d.duration.isSome
  name := QualifiedName.ofParts d.parts.texts
  items := d.items.toList.map (·.item)

end TableDescription

end TableSchema
