import TableSchema.Proofs.Program

/-!
# The grammar as programs

One program for each rule of the grammar, in the order of the rules.
-/

namespace TableSchema

open Rule

-- ---------------------------------------------------------------------------
-- Types and values
-- ---------------------------------------------------------------------------

namespace TypeSpec

def modifierProgram : Program modifier :=
  have h : ∀ words ∈ modifiers, words.all isCapital = true := List.all_eq_true.mp rfl
  program modifiers h
where
  program : (lists : List (List String)) → (∀ words ∈ lists, words.all isCapital = true) →
      Program (firstOf (lists.map fun words => keywords words *> Pure.pure words))
    | [], _ => .never
    | words :: lists, h =>
      ((Program.keywords words (h words (List.mem_cons_self ..))).seqRight (.pure words)).orElse
        (program lists fun words' hw => h words' (List.mem_cons_of_mem _ hw))

def extendProgram (words : List String) : Program (extend words) :=
  Program.iterate (fun _ => modifierProgram.map _) words

def lengthGroupProgram : Program lengthGroup :=
  (Program.symbol "(" rfl).bind fun _ =>
  (((Program.symbol "*" rfl).seqRight (.pure _)).orElse (Program.number.map _)).bind fun _ =>
  ((Program.symbol "," rfl).ifPresent Program.number.option (.pure none)).bind fun _ =>
  (Program.anyKeyword ["CHAR", "BYTE"] rfl).present.bind fun _ =>
  (Program.symbol ")" rfl).bind fun _ => .pure _

def extendBehindProgram (group : Option (Length × Option Nat)) (words : List String) :
    Program (extendBehind group words) :=
  .branch (group.isSome = true) (extendProgram words) (.pure words)

def flagProgram (type : TypeSpec) : Program (flag type) :=
  (Program.branch (type.unsigned = true) .never ((Program.keyword "UNSIGNED" rfl).seqRight (.pure _))).orElse
    (Program.branch (type.zerofill = true) .never ((Program.keyword "ZEROFILL" rfl).seqRight (.pure _)))

def bracketProgram : Program bracket :=
  (Program.symbol "[" rfl).bind fun _ => Program.number.option.bind fun _ => .symbol "]" rfl

def program : Program rule :=
  Program.word.bind fun first =>
  (extendProgram [first]).bind fun words =>
  lengthGroupProgram.option.bind fun group =>
  (extendBehindProgram group words).bind fun _ =>
  (Program.iterate flagProgram _).bind fun _ =>
  (Program.iterate (fun _ => bracketProgram.map _) 0).bind fun _ => .pure _

end TypeSpec

namespace Value

def castProgram : Program cast :=
  (Program.symbol "::" rfl).seqRight (TypeSpec.program.map _)

def operandProgram : Program operand :=
  (Program.literal '\'' rfl).orElse ((Program.literal '"' rfl).orElse (.bare true))

def castExpressionProgram : Program castExpression :=
  operandProgram.bind fun _ => castProgram.bind fun _ => .iterate (fun _ => castProgram) ()

def program : Program rule :=
  (castExpressionProgram.source.map String.ofList).orElse
    ((Program.literal '\'' rfl).orElse ((Program.literal '"' rfl).orElse (.bare false)))

end Value

-- ---------------------------------------------------------------------------
-- Attributes
-- ---------------------------------------------------------------------------

def Attribute.program : (kind : Attribute.Kind) → Program (Attribute.rule kind)
  | .nullability =>
    ((Program.keywords ["NOT", "NULL"] rfl).seqRight (.pure _)).orElse
      ((Program.keyword "NULL" rfl).seqRight (.pure _))
  | .autoIncrement =>
    (Program.anyKeyword ["AUTO_INCREMENT", "AUTOINCREMENT"] rfl).seqRight (.pure _)
  | .key =>
    (((Program.keyword "PRIMARY" rfl).seqRight (.pure _)).orElse
      ((Program.keyword "UNIQUE" rfl).seqRight (.pure _))).seqLeft
        (Program.keyword "KEY" rfl).present
  | .defaultValue => (Program.keyword "DEFAULT" rfl).seqRight (Value.program.map _)
  | .comment => (Program.keyword "COMMENT" rfl).seqRight (Value.program.map _)
  | .encoding => (Program.keyword "ENCODE" rfl).seqRight (Program.word.map _)
  | .distKey => (Program.keyword "DISTKEY" rfl).seqRight (.pure _)
  | .sortKey => (Program.keyword "SORTKEY" rfl).seqRight (.pure _)
  | .characterSet =>
    ((Program.keywords ["CHARACTER", "SET"] rfl).orElse (.keyword "CHARSET" rfl)).bind fun _ =>
    (Program.symbol "=" rfl).present.bind fun _ => (Program.identifier [] rfl).map _

namespace ColumnAttributes

def clauseProgram (progress : Progress) : Program (clause progress) :=
  (Program.firstOf Attribute.program progress.pending).map _

def program : Program rule :=
  (Program.iterate (fun progress => (clauseProgram progress).orElse
    (Program.unclaimed.seqRight (.pure progress))) {}).map _

end ColumnAttributes

-- ---------------------------------------------------------------------------
-- Constraints
-- ---------------------------------------------------------------------------

def QualifiedName.program (extra : List Char) (h : extra.all isSolid = true) :
    Program (QualifiedName.rule extra) :=
  (((Program.identifier extra h).orMiss .tableName).separated (.symbol "." rfl)).map _

def indexLengthProgram : Program indexLength :=
  (Program.symbol "(" rfl).bind fun _ => Program.number.bind fun _ => .symbol ")" rfl

def indexedColumnProgram : Program indexedColumn :=
  ((Program.identifier [] rfl).orMiss .columnName).bind fun _ =>
  indexLengthProgram.present.bind fun _ =>
  (Program.anyKeyword ["ASC", "DESC"] rfl).present.bind fun _ => .pure _

def columnListProgram : Program columnList :=
  ((Program.symbol "(" rfl).orMiss .openParenthesis).bind fun _ =>
  (indexedColumnProgram.separated (.symbol "," rfl)).bind fun _ =>
  ((Program.symbol ")" rfl).orMiss .commaOrClose).bind fun _ => .pure _

def ReferentialAction.program : Program ReferentialAction.rule :=
  ((Program.keyword "RESTRICT" rfl).seqRight (.pure _)).orElse
    (((Program.keyword "CASCADE" rfl).seqRight (.pure _)).orElse
      (((Program.keywords ["SET", "NULL"] rfl).seqRight (.pure _)).orElse
        ((Program.keywords ["NO", "ACTION"] rfl).seqRight (.pure _))))

namespace Reference

def eventProgram (reference : Reference) : Program (event reference) :=
  (Program.keyword "ON" rfl).bind fun _ =>
  (((Program.keyword "DELETE" rfl).seqRight (.pure _)).orElse
    ((Program.keyword "UPDATE" rfl).seqRight (.pure _))).bind fun _ =>
  ReferentialAction.program.bind fun _ => .pure _

def program : Program rule :=
  (Program.keyword "REFERENCES" rfl).bind fun _ =>
  (QualifiedName.program [] rfl).bind fun _ =>
  ((Program.symbol "(" rfl).ifAhead columnListProgram (.pure [])).bind fun _ =>
  ((Program.keyword "MATCH" rfl).ifPresent Program.word.option (.pure none)).bind fun _ =>
  .iterate eventProgram _

def ofKindProgram (kind : ConstraintKind) : Program (ofKind kind) :=
  .branch (kind = .foreignKey) program.option (.pure none)

end Reference

def ConstraintKind.program : Program ConstraintKind.rule :=
  ((Program.keywords ["PRIMARY", "KEY"] rfl).seqRight (.pure _)).orElse
    ((((Program.keyword "UNIQUE" rfl).seqRight
        (Program.anyKeyword ["KEY", "INDEX"] rfl).present).seqRight (.pure _)).orElse
      (((Program.keywords ["NOT", "NULL"] rfl).seqRight (.pure _)).orElse
        ((Program.keywords ["FOREIGN", "KEY"] rfl).seqRight (.pure _))))

def restOfItemProgram : Program restOfItem := .iterate (fun _ => .unclaimed) ()

/-- A name that is required. -/
def nameProgram (expected : Expectation) :
    Program (some <$> (identifier []).orMiss expected : Rule (Option String)) :=
  ((Program.identifier [] rfl).orMiss expected).map some

def Constraint.program : Program Constraint.rule :=
  ((Program.keyword "CONSTRAINT" rfl).ifPresent (nameProgram _) (.pure none)).bind fun first =>
  (ConstraintKind.program.orElse (.branch (first.isSome = true) (.miss _) .never)).bind fun kind =>
  ((Program.symbol "(" rfl).ifAhead (.pure none) (nameProgram _)).bind fun _ =>
  columnListProgram.bind fun _ =>
  (Reference.ofKindProgram kind).bind fun _ =>
  restOfItemProgram.bind fun _ => .pure _

-- ---------------------------------------------------------------------------
-- Items and statements
-- ---------------------------------------------------------------------------

def ColumnDefinition.program : Program ColumnDefinition.rule :=
  ((Program.identifier [] rfl).orMiss .columnDefinition).bind fun _ =>
  (TypeSpec.program.orMiss .dataType).bind fun _ =>
  ColumnAttributes.program.bind fun _ => .pure _

namespace Item

def groupAheadProgram : Program groupAhead := (Program.symbol "(" rfl).ifAhead (.pure ()) .never

def checkProgram : Program check :=
  ((Program.keyword "CONSTRAINT" rfl).ifPresent ((Program.identifier [] rfl).map some)
    (.pure none)).bind fun _ =>
  (Program.keyword "CHECK" rfl).bind fun _ => groupAheadProgram.bind fun _ => restOfItemProgram

def indexProgram : Program index :=
  (Program.anyKeyword ["FULLTEXT", "SPATIAL"] rfl).present.bind fun _ =>
  (Program.anyKeyword ["KEY", "INDEX"] rfl).bind fun _ =>
  ((Program.symbol "(" rfl).ifAhead (.pure none) ((Program.identifier [] rfl).map some)).bind
    fun _ => groupAheadProgram.bind fun _ => restOfItemProgram

def program : Program rule :=
  ((checkProgram.orElse indexProgram).seqRight (.pure none)).orElse
    ((Constraint.program.map _).orElse (ColumnDefinition.program.map _))

def roundProgram (items : List Item) : Program (round items) :=
  (Program.symbol ")" rfl).ifAhead (.pure _) <|
    program.bind fun _ => (Program.symbol "," rfl).ifPresent (.pure _) (.pure _)

def listProgram : Program list :=
  ((Program.symbol "(" rfl).orMiss .openParenthesis).bind fun _ =>
  (Program.loop [] roundProgram).bind fun _ =>
  ((Program.symbol ")" rfl).orMiss .commaOrClose).bind fun _ => .pure _

end Item

namespace Statement

def program : Program rule :=
  ((Program.keyword "CREATE" rfl).orMiss .createKeyword).bind fun _ =>
  (Program.anyKeyword ["GLOBAL", "LOCAL"] rfl).present.bind fun _ =>
  (Program.anyKeyword ["TEMPORARY", "TEMP"] rfl).present.bind fun _ =>
  ((Program.keyword "TABLE" rfl).orMiss .tableKeyword).bind fun _ =>
  (Program.keywords ["IF", "NOT", "EXISTS"] rfl).present.bind fun _ =>
  (QualifiedName.program ['<', '>'] (by decide)).bind fun _ =>
  Item.listProgram.bind fun _ => .pure _

def headProgram : Program head :=
  (Program.keyword "CREATE" rfl).bind fun _ =>
  (Program.anyKeyword ["GLOBAL", "LOCAL"] rfl).present.bind fun _ =>
  (Program.anyKeyword ["TEMPORARY", "TEMP"] rfl).present.bind fun _ => .keyword "TABLE" rfl

end Statement

end TableSchema
