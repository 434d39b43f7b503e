/-!
# Splitting texts

A text cut at every occurrence of a character. There is always at least one piece, and joining the
pieces gives the text back.
-/

namespace TableSchema.Text

def splitAt (separator : Char) : List Char → List (List Char)
  | [] => [[]]
  | c :: rest =>
    if c = separator then [] :: splitAt separator rest
    else
      match splitAt separator rest with
      | piece :: pieces => (c :: piece) :: pieces
      | [] => [[c]]

theorem splitAt_ne_nil (separator : Char) (text : List Char) : splitAt separator text ≠ [] := by
  fun_cases splitAt separator text <;> simp_all

theorem intercalate_splitAt (separator : Char) (text : List Char) :
    [separator].intercalate (splitAt separator text) = text := by
  induction text with
  | nil => simp [splitAt, List.intercalate]
  | cons c rest ih =>
    obtain ⟨piece, pieces, hp⟩ := List.exists_cons_of_ne_nil (splitAt_ne_nil separator rest)
    rw [hp] at ih
    simp only [splitAt, hp]
    split
    next h => subst h; rw [List.intercalate_cons_cons, ih]; rfl
    next =>
      cases pieces with
      | nil => simp_all [List.intercalate]
      | cons next more =>
        rw [List.intercalate_cons_cons] at ih ⊢
        simpa using ih

end TableSchema.Text
