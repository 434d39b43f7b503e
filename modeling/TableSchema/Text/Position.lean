/-!
# Places in a text as readers count them

Lines and columns count from one. A line ends at a line feed and at nothing else; a column counts
characters. Offsets count bytes of the UTF-8 form.
-/

namespace TableSchema

structure Position where
  line : Nat
  column : Nat
  deriving DecidableEq, Repr

namespace Position

/-- The place right after `before`. -/
def after (before : List Char) : Position where
  line := before.count '\n' + 1
  column := (before.reverse.takeWhile (· != '\n')).length + 1

/-- The whole characters that lie within the first `bytes` bytes. A character cut by the limit is
left out, and a limit beyond the text takes all of it. -/
def charsWithin : (bytes : Nat) → List Char → List Char
  | _, [] => []
  | bytes, c :: rest =>
    if c.utf8Size ≤ bytes then c :: charsWithin (bytes - c.utf8Size) rest else []

/-- The place of a byte offset. -/
def ofOffset (text : String) (bytes : Nat) : Position := after (charsWithin bytes text.toList)

end Position

end TableSchema
