import TableSchema.Unicode.Blank

/-!
# Words of a text

The maximal runs of characters that are not white space, and the searches that need no position.
-/

namespace TableSchema.Text

open Unicode

/-- The words of a text, `word` being the part already read of the first one, backwards. -/
def wordsAfter (word : List Char) : List Char → List (List Char)
  | [] => if word.isEmpty then [] else [word.reverse]
  | c :: rest =>
    if isBlank c then
      if word.isEmpty then wordsAfter [] rest else word.reverse :: wordsAfter [] rest
    else wordsAfter (c :: word) rest

def words (text : List Char) : List (List Char) := wordsAfter [] text

/-- Whether nothing but white space is there. -/
def isBlankText (text : List Char) : Bool := text.all isBlank

def trimEnd (text : List Char) : List Char := (text.reverse.dropWhile isBlank).reverse

/-- Whether `part` occurs in a text, at any place. -/
def occursIn (part : List Char) : List Char → Bool
  | [] => part.isEmpty
  | c :: rest => part.isPrefixOf (c :: rest) || occursIn part rest

theorem occursIn_iff {part text : List Char} : occursIn part text = true ↔ part <:+: text := by
  induction text with
  | nil => simp [occursIn]
  | cons c rest ih => simp [occursIn, ih, List.infix_cons_iff]

end TableSchema.Text
