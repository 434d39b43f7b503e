import TableSchema.Unicode.CaseMapping
import TableSchema.Unicode.Cased

/-!
# Case mappings of texts

Upper-casing works character by character. Lower-casing does too, but for the sigma, which takes its
final form where it ends a word.
-/

namespace TableSchema.Unicode

def upperChars (text : List Char) : List Char := text.flatMap upperChar

/-- Whether the first character that is not case-ignorable is cased. -/
def meetsCased (text : List Char) : Bool :=
  match text.dropWhile isCaseIgnorable with
  | c :: _ => isCased c
  | [] => false

/-- The word around a place ends there: it has a cased character before the place and none after.
What stands before is given from the place backwards. -/
def endsWord (before after : List Char) : Bool := meetsCased before && !meetsCased after

/-- Lower-cases what follows `before`, which is given backwards. -/
def lowerAfter (before : List Char) : List Char → List Char
  | [] => []
  | c :: rest =>
    (if c = 'Σ' then [if endsWord before rest then 'ς' else 'σ'] else lowerChar c) ++
      lowerAfter (c :: before) rest

def lowerChars (text : List Char) : List Char := lowerAfter [] text

def upperCase (text : String) : String := String.ofList (upperChars text.toList)

def lowerCase (text : String) : String := String.ofList (lowerChars text.toList)

end TableSchema.Unicode
