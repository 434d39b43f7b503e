import TableSchema.ParseError
import TableSchema.Statement.Item

/-!
# CREATE TABLE statements

A text holds exactly one statement. What follows it up to a semicolon belongs to it, and what
follows the semicolon is passed over, but neither may begin another `CREATE TABLE`.
-/

namespace TableSchema

structure Statement where
  temporary : Bool
  name : QualifiedName
  items : List Item
  deriving DecidableEq, Repr

namespace Statement

open Rule Scan

/-- A statement up to the parenthesis that closes its items. -/
def rule : Rule Statement := do
  (keyword "CREATE").orMiss .createKeyword
  let _ ← present (anyKeyword ["GLOBAL", "LOCAL"])
  let temporary ← present (anyKeyword ["TEMPORARY", "TEMP"])
  (keyword "TABLE").orMiss .tableKeyword
  let _ ← present (keywords ["IF", "NOT", "EXISTS"])
  let name ← QualifiedName.rule ['<', '>']
  let items ← Item.list
  return { temporary, name, items }

/-- The words that begin a statement. -/
def head : Rule Unit := do
  keyword "CREATE"
  let _ ← present (anyKeyword ["GLOBAL", "LOCAL"])
  let _ ← present (anyKeyword ["TEMPORARY", "TEMP"])
  keyword "TABLE"

/-- Whether a `CREATE TABLE` begins at the next token. -/
def begins (s : List Char) : Bool := (head.run s).result.isSome

/-- How the text after the items of a statement ends. -/
inductive Ending where
  | terminator
  | nextStatement
  | endOfText
  deriving DecidableEq, Repr

theorem length_pastToken {s rest : List Char} {c : Char} (h : skipTrivia s = c :: rest) :
    (pastToken s).length < s.length := by
  have hs := (skipTrivia_suffix s).length_le
  have := (pastToken_suffix_tail h).length_le
  rw [h, List.length_cons] at hs
  omega

/-- Passes over the options of a statement: past the next semicolon, or up to where another
statement begins. -/
def pastOptions (s : List Char) : Ending × List Char :=
  match h : skipTrivia s with
  | [] => (.endOfText, [])
  | c :: rest =>
    if c = ';' then (.terminator, rest)
    else if begins s then (.nextStatement, c :: rest)
    else
      have := length_pastToken h
      pastOptions (pastToken s)
termination_by s.length

/-- Where the next `CREATE TABLE` begins, if one does at any token. -/
def next? (s : List Char) : Option (List Char) :=
  match h : skipTrivia s with
  | [] => none
  | c :: rest =>
    if begins s then some (c :: rest)
    else
      have := length_pastToken h
      next? (pastToken s)
termination_by s.length

/-- Reads a text that holds one statement. -/
def readChars (text : List Char) : Except ParseError Statement :=
  match rule.run text with
  | ⟨none, misses⟩ => .error (.ofMisses text misses)
  | ⟨some (statement, rest), _⟩ =>
    match next? (pastOptions rest).2 with
    | some second => .error (.ofSecondStatement text second)
    | none => .ok statement

def read (text : String) : Except ParseError Statement := readChars text.toList

end Statement

end TableSchema
