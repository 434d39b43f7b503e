import TableSchema.Unicode.CodePoints

/-!
# White space

The property `White_Space`. Everything that separates words of a text is a character of this set.
-/

namespace TableSchema.Unicode

/-- The characters with the property `White_Space`. -/
def blank : CodePoints where
  intervals := [
    (0x9, 0xD), (0x20, 0x20), (0x85, 0x85), (0xA0, 0xA0), (0x1680, 0x1680), (0x2000, 0x200A),
    (0x2028, 0x2029), (0x202F, 0x202F), (0x205F, 0x205F), (0x3000, 0x3000)]

def isBlank (c : Char) : Bool := blank.contains c

example : blank.size = 25 := by decide

theorem isBlank_of_isWhitespace {c : Char} (h : c.isWhitespace = true) : isBlank c = true := by
  simp only [Char.isWhitespace, Bool.or_eq_true, decide_eq_true_eq] at h
  rcases h with ((rfl | rfl) | rfl) | rfl <;> decide

end TableSchema.Unicode
