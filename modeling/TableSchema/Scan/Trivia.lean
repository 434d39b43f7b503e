import TableSchema.Unicode.Blank

/-!
# Trivia

White space, line comments from `--` and block comments between `/*` and `*/` may stand before any
token. A place in a text is what is left to read there, so skipping is a function from texts to
texts; its results are suffixes of the text it was given.
-/

namespace TableSchema.Scan

open Unicode

/-- What follows the next line feed. -/
def pastLine : List Char → List Char
  | [] => []
  | c :: rest => if c = '\n' then rest else pastLine rest

/-- What follows the end of the block comment that is open. An unclosed one runs to the end. -/
def pastBlock : List Char → List Char
  | '*' :: '/' :: rest => rest
  | _ :: rest => pastBlock rest
  | [] => []

theorem pastLine_suffix (s : List Char) : pastLine s <:+ s := by
  fun_induction pastLine s with
  | case1 => exact List.suffix_refl _
  | case2 rest => exact List.suffix_cons _ rest
  | case3 c rest _ ih => exact ih.trans (List.suffix_cons c rest)

theorem pastBlock_suffix (s : List Char) : pastBlock s <:+ s := by
  fun_induction pastBlock s with
  | case1 rest => exact ⟨['*', '/'], rfl⟩
  | case2 c rest _ ih => exact ih.trans (List.suffix_cons c rest)
  | case3 => exact List.suffix_refl _

/-- What is left once white space and comments are skipped. -/
def skipTrivia : List Char → List Char
  | '/' :: '*' :: rest => skipTrivia (pastBlock rest)
  | '-' :: '-' :: rest => skipTrivia (pastLine rest)
  | c :: rest => if isBlank c then skipTrivia rest else c :: rest
  | [] => []
termination_by s => s.length
decreasing_by
  · have := (pastBlock_suffix rest).length_le
    simp; omega
  · have := (pastLine_suffix rest).length_le
    simp; omega
  · simp

theorem skipTrivia_suffix (s : List Char) : skipTrivia s <:+ s := by
  fun_induction skipTrivia s with
  | case1 rest ih => exact ih.trans ((pastBlock_suffix rest).trans ⟨['/', '*'], rfl⟩)
  | case2 rest ih => exact ih.trans ((pastLine_suffix rest).trans ⟨['-', '-'], rfl⟩)
  | case3 c rest _ _ _ ih => exact ih.trans (List.suffix_cons c rest)
  | case4 => exact List.suffix_refl _
  | case5 => exact List.suffix_refl _

/-- Skipping twice skips no more than skipping once. -/
theorem skipTrivia_skipTrivia (s : List Char) : skipTrivia (skipTrivia s) = skipTrivia s := by
  fun_induction skipTrivia s with
  | case1 _ ih => exact ih
  | case2 _ ih => exact ih
  | case3 _ _ _ _ _ ih => exact ih
  | case4 c rest hb hl hc => rw [skipTrivia.eq_3 _ _ hb hl, if_neg hc]
  | case5 => rw [skipTrivia.eq_4]

end TableSchema.Scan
