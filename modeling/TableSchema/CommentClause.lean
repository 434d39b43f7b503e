import TableSchema.Unicode.Blank
import TableSchema.Unicode.WordPart

/-!
# Comments in constraint text

Free constraint text may hold the word `COMMENT` and a text in quotes behind white space. The text
runs to the last quote of its kind and is not empty.
-/

namespace TableSchema.CommentClause

open Unicode

/-- The text before the last `quote`, unless it is empty. -/
def untilLast (quote : Char) (s : List Char) : Option (List Char) :=
  match s.reverse.dropWhile (· != quote) with
  | _ :: c :: body => some (c :: body).reverse
  | _ => none

/-- The text in quotes behind white space. -/
def quoted (s : List Char) : Option (List Char) :=
  match s.dropWhile isBlank with
  | c :: rest => if c = '\'' ∨ c = '"' then untilLast c rest else none
  | [] => none

/-- The comment of a clause that begins here. -/
def comment? (s : List Char) : Option (List Char) :=
  let (word, rest) := s.splitAt "COMMENT".length
  if word.map Char.toUpper = "COMMENT".toList ∧ rest.head?.any isBlank then quoted rest else none

/-- The comment of the first clause that has one. The word `COMMENT` must not continue the word
before it. -/
def findAfter (inWord : Bool) : List Char → Option (List Char)
  | [] => none
  | c :: rest =>
    match if inWord then none else comment? (c :: rest) with
    | some comment => some comment
    | none => findAfter (isWordPart c) rest

def find (text : String) : Option String := (findAfter false text.toList).map String.ofList

end TableSchema.CommentClause
