/-!
# Quoted literals

A literal ends at the first quote that does not stand before another one; two quotes in a row belong
to the contents. Where backslashes escape, the character after one belongs to the contents too.
`readLiteral_eq` says that nothing is lost: contents, quote and rest are the text read.
-/

namespace TableSchema.Scan

/-- Splits the text after an opening quote into the contents of the literal, as written, and what
follows the closing quote. -/
def readLiteral (quote : Char) (escapes : Bool) : List Char → Option (List Char × List Char)
  | [] => none
  | c :: rest =>
    if escapes && c == '\\' then
      match rest with
      | [] => none
      | d :: rest =>
        (readLiteral quote escapes rest).map fun (body, after) => (c :: d :: body, after)
    else if c = quote then
      match rest with
      | [] => some ([], [])
      | d :: rest =>
        if d = quote then
          (readLiteral quote escapes rest).map fun (body, after) => (c :: d :: body, after)
        else some ([], d :: rest)
    else (readLiteral quote escapes rest).map fun (body, after) => (c :: body, after)

theorem readLiteral_eq {quote : Char} {escapes : Bool} {s body after : List Char}
    (h : readLiteral quote escapes s = some (body, after)) : s = body ++ quote :: after := by
  fun_induction readLiteral quote escapes s generalizing body after with
  | case1 => simp at h
  | case2 => simp at h
  | case3 c _ d rest ih =>
    obtain ⟨⟨body, after⟩, hr, he⟩ := Option.map_eq_some_iff.mp h
    cases he
    simpa using ih hr
  | case4 => simp_all
  | case5 rest _ ih =>
    obtain ⟨⟨body, after⟩, hr, he⟩ := Option.map_eq_some_iff.mp h
    cases he
    simpa using ih hr
  | case6 => simp_all
  | case7 c rest _ _ ih =>
    obtain ⟨⟨body, after⟩, hr, he⟩ := Option.map_eq_some_iff.mp h
    cases he
    simpa using ih hr

/-- The characters that open a literal. -/
def isQuote (c : Char) : Bool := c == '\'' || c == '"' || c == '`'

/-- Backslashes escape in literals, and not in names between backticks. -/
def escapesIn (quote : Char) : Bool := quote != '`'

/-- What follows the literal that `quote` has opened. An unclosed one runs to the end. -/
def pastLiteral (quote : Char) (s : List Char) : List Char :=
  match readLiteral quote (escapesIn quote) s with
  | some (_, after) => after
  | none => []

theorem pastLiteral_suffix (quote : Char) (s : List Char) : pastLiteral quote s <:+ s := by
  unfold pastLiteral
  split
  next body after h =>
    rw [readLiteral_eq h]
    exact (List.suffix_cons _ _).trans (List.suffix_append _ _)
  next => exact List.nil_suffix

/-- Writes every `quote` twice. -/
def doubleQuotes (quote : Char) : List Char → List Char
  | [] => []
  | c :: rest =>
    if c = quote then c :: c :: doubleQuotes quote rest else c :: doubleQuotes quote rest

/-- Reads two quotes in a row as one. -/
def undoubleQuotes (quote : Char) : List Char → List Char
  | [] => []
  | [c] => [c]
  | c :: d :: rest =>
    if c = quote ∧ d = quote then c :: undoubleQuotes quote rest
    else c :: undoubleQuotes quote (d :: rest)

end TableSchema.Scan
