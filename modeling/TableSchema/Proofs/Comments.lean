import TableSchema.Proofs.Comments.Rule
import TableSchema.Table

/-!
# Comments are white space

A text that declares a table declares the same one if a block comment is put in place of a blank,
wherever the blank stands between tokens and whatever the comment holds. In a group that is skipped
the comment must have no quotes and no parentheses: `Table.parse_comment`. There they count as those
of the group do, so that a quote in the comment opens a literal: `Table.parse_quote_in_comment`.
-/

namespace TableSchema

open Rule Scan

section

variable {r : Replacement} {s t : List Char}

namespace Statement

theorem begins_commented (h : Commented r s t) (hc : Spares r (headProgram.extents s)) :
    begins s = begins t := by
  have hx := headProgram.transparent h hc
  show (head.read s).isSome = (head.read t).isSome
  generalize head.read s = x at hx
  generalize head.read t = y at hx
  cases hx <;> rfl

/-- The search for another statement ends at the same one in both texts, or at none. -/
theorem next?_commented (h : Commented r s t) (hc : Spares r (searchExtents s)) :
    Option.Rel (Commented r) (next? s) (next? t) := by
  induction hn : s.length using Nat.strongRecOn generalizing s t with
  | ind n ih =>
    rw [searchExtents] at hc
    simp only [spares_append] at hc
    obtain ⟨⟨⟨htrivia, hhead⟩, htoken⟩, hnext⟩ := hc
    have hskip := h.skipTrivia htrivia
    have hpast := h.pastToken htrivia htoken
    cases hs : skipTrivia s with
    | nil =>
      rw [hs] at hskip
      rcases hskip with ha | ⟨-, ht⟩
      · exact absurd ha.length_lt (Nat.not_lt_zero _)
      · rw [next?_of_nil hs, next?_of_nil ht]
        exact .none
    | cons c rest =>
      obtain ⟨rest', ht⟩ : ∃ rest', skipTrivia t = c :: rest' := by
        rcases hskip with ha | ⟨-, ht⟩
        · obtain ⟨c', s', t', hs', ht, -⟩ := ha.exists_cons
          cases hs.symm.trans hs'
          exact ⟨t', ht⟩
        · exact ⟨rest, ht.trans hs⟩
      rw [next?_of_cons hs, next?_of_cons ht, ← begins_commented h hhead]
      split
      · exact .some (hs ▸ ht ▸ hskip)
      · split at hnext
        next hnil => rw [hs] at hnil; cases hnil
        next => exact ih _ (hn ▸ length_pastToken hs) hpast hnext rfl

theorem readChars_commented (h : Commented r s t) (hc : Spares r (extents s))
    (hs : readChars s = .ok statement) : readChars t = .ok statement := by
  obtain ⟨hstatement, hsearch⟩ := spares_append.mp hc
  have hx := program.transparent h hstatement
  rw [readChars_eq] at hs ⊢
  rcases hread : rule.read s with _ | ⟨statement', rest⟩
  · simp [hread] at hs
  · rw [hread] at hs hx hsearch
    obtain ⟨rest', ht, hrest⟩ := agrees_some_iff.mp hx
    have hnext := next?_commented hrest hsearch
    simp only [ht, next?_behind_options] at hs ⊢
    generalize next? rest = x at hs hnext
    generalize next? rest' = y at hnext
    cases hnext with
    | none => exact hs
    | some => cases hs

end Statement

end

theorem commented_append (r : Replacement) (text : List Char) :
    Commented r (text ++ r.before) (text ++ r.after) := by
  refine .inl ?_
  induction text with
  | nil => exact .here
  | cons c text ih => exact .cons c ih

theorem isBlankText_append_after (r : Replacement) (text : List Char) :
    Text.isBlankText (text ++ r.after) = false := by
  have hslash : Unicode.isBlank '/' = false := rfl
  simp [Text.isBlankText, Replacement.after, hslash]

/-- A comment between tokens is white space, whatever it holds. In a group that is skipped it is if
it holds no quote and no parenthesis. -/
theorem Table.parse_comment {dialect : Option Dialect} {table : Table} (text : List Char)
    (r : Replacement) (hr : Spares r (Statement.extents (text ++ r.before)))
    (h : Table.parse (String.ofList (text ++ r.before)) dialect = .ok table) :
    Table.parse (String.ofList (text ++ r.after)) dialect = .ok table := by
  rw [Table.parse, Statement.read, String.toList_ofList] at h ⊢
  split at h
  next => cases h
  next =>
    cases hs : Statement.readChars (text ++ r.before) with
    | error e => rw [hs] at h; cases h
    | ok statement =>
      rw [hs] at h
      rw [isBlankText_append_after, Statement.readChars_commented (commented_append r text) hr hs]
      exact h

theorem exists_of_isOk {x : Except ε α} (h : x.isOk = true) : ∃ a, x = .ok a := by
  cases x with
  | error e => cases h
  | ok a => exact ⟨a, rfl⟩

/-- A comment for the blank before `> 0` with a semicolon in it and a backslash at its end. -/
def Replacement.sample : Replacement where
  blank := ' '
  behind := "> 0))".toList
  body := "not; \\".toList
  isBlank_blank := rfl
  closed := by decide

theorem Table.parse_comment_of_check :
    Spares .sample (Statement.extents "CREATE TABLE t (a int, CHECK (a > 0))".toList) ∧
      ∃ table,
        Table.parse "CREATE TABLE t (a int, CHECK (a > 0))" none = .ok table ∧
        Table.parse "CREATE TABLE t (a int, CHECK (a/*not; \\*/> 0))" none = .ok table := by
  have hr : Spares .sample (Statement.extents "CREATE TABLE t (a int, CHECK (a > 0))".toList) := by
    decide +kernel
  have hbefore : "CREATE TABLE t (a int, CHECK (a".toList ++ Replacement.sample.before =
      "CREATE TABLE t (a int, CHECK (a > 0))".toList := by decide +kernel
  have hafter : String.ofList ("CREATE TABLE t (a int, CHECK (a".toList ++
      Replacement.sample.after) = "CREATE TABLE t (a int, CHECK (a/*not; \\*/> 0))" := by
    decide +kernel
  obtain ⟨table, h⟩ := exists_of_isOk
    (x := Table.parse "CREATE TABLE t (a int, CHECK (a > 0))" none) (by decide +kernel)
  refine ⟨hr, table, h, ?_⟩
  rw [← hafter]
  refine Table.parse_comment _ .sample ?_ ?_
  · rw [hbefore]
    exact hr
  · rw [hbefore, String.ofList_toList]
    exact h

/-- A quote in a comment in a group opens a literal, and the table that was read is lost. -/
theorem Table.parse_quote_in_comment :
    (∀ e ∈ Statement.extents "CREATE TABLE t (a int, CHECK (a > 0))".toList,
      e.covers "> 0))".toList → e.kind = .group) ∧
      (Table.parse "CREATE TABLE t (a int, CHECK (a > 0))" none).isOk = true ∧
      (Table.parse "CREATE TABLE t (a int, CHECK (a/*'*/> 0))" none).isOk = false := by
  decide +kernel

end TableSchema
