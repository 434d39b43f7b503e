import TableSchema.Dialect
import TableSchema.Rule
import TableSchema.Text.Position
import TableSchema.Text.Words

/-!
# Errors of reading

A text that is no statement fails at the furthest place where something required was missing. The
error names everything that was required there and quotes what stands there instead.
-/

namespace TableSchema

inductive ParseErrorKind where
  | syntaxError
  | missingClause
  | unexpectedEof
  | multipleStatements
  deriving DecidableEq, Repr

inductive ParseError.Detail where
  /-- Something of `wanted` is missing; `found` stands there, or the text has ended. -/
  | missing (wanted : List Expectation) (found : Option String)
  | secondStatement
  | other (text : String)
  deriving DecidableEq, Repr

structure ParseError where
  detail : ParseError.Detail
  position : Option Position := none
  dialect : Option Dialect := none
  kind : ParseErrorKind := .syntaxError
  deriving DecidableEq, Repr

namespace ParseError

def wantedText : List Expectation → String
  | [] => "CREATE TABLE statement"
  | [one] => one.text
  | many => "one of " ++ ", ".intercalate (many.map (·.text))

/-- What is wrong, without the place. -/
def Detail.text : Detail → String
  | .missing wanted (some found) => "expected " ++ wantedText wanted ++ ", found '" ++ found ++ "'"
  | .missing wanted none => "expected " ++ wantedText wanted ++ ", found end of input"
  | .secondStatement => "only one CREATE TABLE statement is supported per input"
  | .other text => text

def message (e : ParseError) : String :=
  let dialect := match e.dialect with
    | some dialect => " (" ++ dialect.name ++ ")"
    | none => ""
  let position := match e.position with
    | some p => " at line " ++ toString p.line ++ ", column " ++ toString p.column
    | none => ""
  "Parse error" ++ dialect ++ position ++ ": " ++ e.detail.text

/-- The place where `rest` is left of a text. -/
def placeOf (text rest : List Char) : Position :=
  Position.after (text.take (text.length - rest.length))

/-- The furthest place of the misses, or the start of the text if there are none. -/
def furthest (text : List Char) (misses : List Miss) : List Char :=
  misses.foldl (fun best m => if m.rest.length < best.length then m.rest else best) text

/-- What was required at a place, each thing once and in the order in which it was missed. -/
def wantedAt (rest : List Char) (misses : List Miss) : List Expectation :=
  ((misses.filter fun m => m.rest.length = rest.length).map (·.expected)).eraseDups

/-- The most characters of a word that a message quotes. -/
def quotedLength : Nat := 20

def ofMisses (text : List Char) (misses : List Miss) : ParseError :=
  let rest := furthest text misses
  let wanted := wantedAt rest misses
  let found := (Text.words rest).head?.map fun word => String.ofList (word.take quotedLength)
  { detail := .missing wanted found
    position := some (placeOf text rest)
    kind :=
      if found.isNone then .unexpectedEof
      else if !wanted.isEmpty && wanted.all (·.isKeyword) then .missingClause
      else .syntaxError }

/-- A second statement begins where `rest` is left. -/
def ofSecondStatement (text rest : List Char) : ParseError where
  detail := .secondStatement
  position := some (placeOf text rest)
  kind := .multipleStatements

end ParseError

end TableSchema
