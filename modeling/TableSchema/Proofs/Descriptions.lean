import Mathlib.Algebra.Group.Nat.Even
import Mathlib.Data.List.DropRight
import TableSchema.Proofs.Rendering
import TableSchema.Proofs.ScanLaws

/-!
# Descriptions as literals

A statement writes the description of a column between double quotes and puts a backslash before
each double quote of it. The backslashes that the description has of its own stay as they are. So the
literal ends where it should exactly if they come in pairs wherever a double quote follows, the
closing one included (`EvenlyEscaped`).
-/

namespace TableSchema

open BigQuery Scan

def trailingBackslashes (s : List Char) : Nat := (s.rtakeWhile (· == '\\')).length

/-- Before each double quote of a text, and at its end, stands an even number of backslashes. -/
def EvenlyEscaped (s : List Char) : Prop :=
  ∀ ⦃before⦄, before ++ ['"'] <+: s ++ ['"'] → Even (trailingBackslashes before)

-- ---------------------------------------------------------------------------
-- Runs of backslashes
-- ---------------------------------------------------------------------------

@[simp] theorem trailingBackslashes_nil : trailingBackslashes [] = 0 := rfl

theorem trailingBackslashes_concat (s : List Char) (c : Char) :
    trailingBackslashes (s ++ [c]) = if c = '\\' then trailingBackslashes s + 1 else 0 := by
  by_cases hc : c = '\\' <;> simp [trailingBackslashes, hc]

/-- Only what follows the last character that is no backslash counts. -/
theorem trailingBackslashes_append_cons (hc : c ≠ '\\') (before s : List Char) :
    trailingBackslashes (before ++ c :: s) = trailingBackslashes s := by
  induction s using List.reverseRecOn with
  | nil => simp [trailingBackslashes_concat, hc]
  | append_singleton s d ih =>
    rw [← List.cons_append, ← List.append_assoc, trailingBackslashes_concat,
      trailingBackslashes_concat, ih]

theorem even_trailingBackslashes_pair (s : List Char) :
    Even (trailingBackslashes ('\\' :: '\\' :: s)) ↔ Even (trailingBackslashes s) := by
  induction s using List.reverseRecOn with
  | nil => decide
  | append_singleton s d ih =>
    simp only [← List.cons_append, trailingBackslashes_concat]
    split
    next => rw [Nat.even_add_one, Nat.even_add_one, ih]
    next => rfl

-- ---------------------------------------------------------------------------
-- Evenly escaped texts
-- ---------------------------------------------------------------------------

theorem evenlyEscaped_nil : EvenlyEscaped [] := by
  intro before hb
  have hlength := hb.length_le
  obtain rfl : before = [] := by simpa using hlength
  simp

theorem evenlyEscaped_cons (hc : c ≠ '\\') (s : List Char) :
    EvenlyEscaped (c :: s) ↔ EvenlyEscaped s := by
  constructor
  · intro h before hb
    rw [← trailingBackslashes_append_cons hc [] before]
    exact h (List.cons_prefix_cons.mpr ⟨rfl, hb⟩)
  · intro h before hb
    cases before with
    | nil => simp
    | cons d before =>
      obtain ⟨rfl, hbefore⟩ := List.cons_prefix_cons.mp hb
      rw [← List.nil_append (d :: before), trailingBackslashes_append_cons hc]
      exact h hbefore

theorem even_trailingBackslashes_escape (c : Char) (s : List Char) :
    Even (trailingBackslashes ('\\' :: c :: s)) ↔ Even (trailingBackslashes s) := by
  by_cases hc : c = '\\'
  · rw [hc, even_trailingBackslashes_pair]
  · rw [← List.singleton_append, trailingBackslashes_append_cons hc]

theorem evenlyEscaped_escape (hc : c ≠ '"') (s : List Char) :
    EvenlyEscaped ('\\' :: c :: s) ↔ EvenlyEscaped s := by
  constructor
  · intro h before hb
    rw [← even_trailingBackslashes_escape c before]
    exact h (List.cons_prefix_cons.mpr ⟨rfl, List.cons_prefix_cons.mpr ⟨rfl, hb⟩⟩)
  · intro h before hb
    match before with
    | [] => simp
    | [d] =>
      obtain ⟨-, hquote⟩ := List.cons_prefix_cons.mp hb
      exact absurd (List.cons_prefix_cons.mp hquote).1.symm hc
    | d :: d' :: before =>
      obtain ⟨hd, hrest⟩ := List.cons_prefix_cons.mp hb
      obtain ⟨-, hbefore⟩ := List.cons_prefix_cons.mp hrest
      rw [hd, even_trailingBackslashes_escape]
      exact h hbefore

/-- One backslash before a double quote is one too few, whether the quote is of the text or closes
the literal. -/
theorem not_evenlyEscaped (h : (s ++ ['"']).head? = some '"') : ¬ EvenlyEscaped ('\\' :: s) := by
  intro he
  obtain ⟨rest, hs⟩ := List.head?_eq_some_iff.mp h
  have hodd := @he ['\\'] (by simp [hs])
  exact absurd hodd (by decide)

/-- A text without a backslash needs no care. -/
theorem evenlyEscaped_of_notMem (h : '\\' ∉ s) : EvenlyEscaped s := by
  induction s with
  | nil => exact evenlyEscaped_nil
  | cons c s ih =>
    rw [List.mem_cons, not_or] at h
    exact (evenlyEscaped_cons (Ne.symm h.1) s).mpr (ih h.2)

-- ---------------------------------------------------------------------------
-- The literal
-- ---------------------------------------------------------------------------

theorem escapeQuotes_of_ne (hc : c ≠ '"') (s : List Char) :
    escapeQuotes (c :: s) = c :: escapeQuotes s := by
  simp [escapeQuotes_eq_flatMap, hc]

theorem head?_escapeQuotes (s : List Char) : (escapeQuotes s).head? ≠ some '"' := by
  cases s with
  | nil => simp [escapeQuotes]
  | cons c s =>
    by_cases hc : c = '"'
    · simp [hc, escapeQuotes]
    · simp [escapeQuotes_of_ne hc, hc]

/-- A bare double quote ends a literal, unless it is doubled; it is never the whole of what stands
before another. -/
theorem readLiteral_bare_ne (hs : s.head? ≠ some '"') (rest : List Char) :
    readLiteral '"' true ('"' :: (s ++ '"' :: rest)) ≠ some ('"' :: s, rest) := by
  rw [readLiteral_quote rfl]
  split
  next hdouble =>
    have hnil : s = [] := by
      cases s with
      | nil => rfl
      | cons c s => exact absurd hdouble hs
    simp [hnil]
  next => simp

/-- By induction on the length: a backslash takes the next character with it. -/
theorem readLiteral_escapeQuotes_iff (hr : rest.head? ≠ some '"') (s : List Char) :
    readLiteral '"' true (escapeQuotes s ++ '"' :: rest) = some (escapeQuotes s, rest) ↔
      EvenlyEscaped s := by
  induction hn : s.length using Nat.strongRecOn generalizing s with
  | ind n ih =>
    cases s with
    | nil =>
      refine iff_of_true ?_ evenlyEscaped_nil
      simp [escapeQuotes, readLiteral_quote, hr]
    | cons c s =>
      by_cases hc : c = '\\'
      · subst hc
        cases s with
        | nil =>
          -- The backslash takes the closing quote for its own.
          refine iff_of_false ?_ (not_evenlyEscaped rfl)
          simp [escapeQuotes, readLiteral_escape]
        | cons d s =>
          by_cases hd : d = '"'
          · -- The backslash takes the one put before the quote, which is left bare.
            subst hd
            refine iff_of_false ?_ (not_evenlyEscaped rfl)
            simpa [escapeQuotes, readLiteral_escape] using
              readLiteral_bare_ne (head?_escapeQuotes s) rest
          · have hshort : s.length < n := by
              simp only [← hn, List.length_cons]
              omega
            rw [evenlyEscaped_escape hd, ← ih _ hshort s rfl]
            simp [escapeQuotes, escapeQuotes_of_ne hd, readLiteral_escape]
      · have hshort : s.length < n := by simp [← hn]
        rw [evenlyEscaped_cons hc, ← ih _ hshort s rfl]
        by_cases hq : c = '"'
        · simp [hq, escapeQuotes, readLiteral_escape]
        · have hplain : (true && c == '\\') = false := by simpa using hc
          simp [escapeQuotes_of_ne hq, readLiteral_of_ne hplain hq]

-- ---------------------------------------------------------------------------
-- Columns
-- ---------------------------------------------------------------------------

namespace Column

variable {column : Column} {case : NameCase} {description line : String}

theorem sql_fieldOf_comment (hd : column.comment = some description) (type : FieldType) :
    (column.fieldOf case type).sql =
      ((column.setComment none).fieldOf case type).sql ++ Field.sqlOptions (some description) := by
  have hname : (column.setComment none).nameIn case = column.nameIn case := rfl
  have htype : (column.setComment none).sqlType type.standardName =
      column.sqlType type.standardName := rfl
  have hnone : Field.sqlOptions (column.setComment none).comment = "" := rfl
  rw [sql_fieldOf, sql_fieldOf, hd, hname, htype, hnone, String.append_empty]

/-- The line of a column with a description is the line without it and a literal behind it, which
ends with the option exactly if the description is evenly escaped. -/
theorem ddl_description (hd : column.comment = some description)
    (h : column.ddl case = .ok line) :
    ∃ head literal, (column.setComment none).ddl case = .ok head ∧
      line = head ++ " OPTIONS (description = \"" ++ String.ofList literal ∧
      literal = escapeQuotes description.toList ++ ['"', ')'] ∧
      (readLiteral '"' true literal = some (escapeQuotes description.toList, [')']) ↔
        EvenlyEscaped description.toList) := by
  obtain ⟨type, ht⟩ := exists_ddl_iff.mp ⟨line, h⟩
  have hplain : (column.setComment none).fieldType = .ok type := ht
  have hline := Except.ok.inj ((ddl_of_mappable ht case).symm.trans h)
  have hclose : "\")" = String.ofList ['"', ')'] := rfl
  refine ⟨_, _, ddl_of_mappable hplain case, ?_, rfl, readLiteral_escapeQuotes_iff (by simp) _⟩
  have hoption : Field.sqlOptions (some description) =
      " OPTIONS (description = \"" ++ String.ofList (escapeQuotes description.toList) ++ "\")" :=
    rfl
  rw [← hline, sql_fieldOf_comment hd, String.ofList_append, ← hclose, hoption,
    String.append_assoc, String.append_assoc]

theorem ddl_description_of_quotes :
    ((Column.new "c" "bool").setComment (some "say \"hi\"")).ddl .declared =
        .ok "c BOOL OPTIONS (description = \"say \\\"hi\\\"\")" ∧
      readLiteral '"' true "say \\\"hi\\\"\")".toList = some ("say \\\"hi\\\"".toList, [')']) := by
  have h : ((Column.new "c" "bool").setComment (some "say \"hi\"")).ddl .declared =
      .ok "c BOOL OPTIONS (description = \"say \\\"hi\\\"\")" := by
    rfl
  obtain ⟨head, literal, -, -, rfl, hread⟩ := ddl_description rfl h
  exact ⟨h, hread.mpr (evenlyEscaped_of_notMem (by decide))⟩

/-- A backslash that stands before a double quote already does not escape it any more. -/
theorem ddl_of_escapedQuote :
    (Table.parse "CREATE TABLE t (a text COMMENT \"say \\\"hi\\\"\")" none).toOption.map
        (·.columns.toList.map fun column => (column.comment, (column.ddl .declared).toOption)) =
      some [(some "say \\\"hi\\\"",
        some "a STRING OPTIONS (description = \"say \\\\\"hi\\\\\"\")")] ∧
    readLiteral '"' true "say \\\\\"hi\\\\\"\")".toList =
      some ("say \\\\".toList, "hi\\\\\"\")".toList) := by
  decide +kernel

end Column

end TableSchema
