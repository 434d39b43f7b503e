import TableSchema.Column

/-!
# Constraint text read back

The constraint text of a column with a comment behind it reads back as the same comment and the
same key flags, unless the comment itself mentions a constraint: the flags are looked for in the whole
text, and the comment is part of it.
-/

namespace TableSchema

namespace Text

/-- Whether these words stand in a text, in any case and at any place. -/
def mentions (words text : String) : Bool :=
  occursIn words.toList (Unicode.upperCase text).toList

theorem isPrefixOf_append_cons {part : List Char} (h : mark ∉ part) (before after : List Char) :
    part.isPrefixOf (before ++ mark :: after) = part.isPrefixOf before := by
  induction part generalizing before with
  | nil => simp
  | cons c part ih =>
    rw [List.mem_cons, not_or] at h
    cases before with
    | nil => simp [List.isPrefixOf, Ne.symm h.1]
    | cons d before => simp [List.isPrefixOf, ih h.2]

/-- A text that lacks the mark stands on one side of it. -/
theorem occursIn_append_cons {part : List Char} (h : mark ∉ part) (before after : List Char) :
    occursIn part (before ++ mark :: after) = (occursIn part before || occursIn part after) := by
  induction before with
  | nil =>
    have hprefix := isPrefixOf_append_cons h [] after
    cases part <;> simp_all [occursIn]
  | cons c before ih =>
    have hprefix := isPrefixOf_append_cons h (c :: before) after
    rw [List.cons_append] at hprefix ⊢
    rw [occursIn, occursIn, hprefix, ih, Bool.or_assoc]

/-- A quote keeps its case and parts the text around it. -/
theorem mentions_quote {words : String} (h : '\'' ∉ words.toList) (before after : String) :
    mentions words (before ++ "'" ++ after) = (mentions words before || mentions words after) := by
  have hquote : Unicode.upperChar '\'' = ['\''] := by decide
  simp [mentions, Unicode.upperCase, Unicode.upperChars, hquote, occursIn_append_cons h]

end Text

-- ---------------------------------------------------------------------------
-- The comment
-- ---------------------------------------------------------------------------

namespace CommentClause

theorem comment?_cons_of_ne (hc : c.toUpper ≠ 'C') (s : List Char) : comment? (c :: s) = none := by
  have hlength : "COMMENT".length = 6 + 1 := rfl
  simp [comment?, hlength, hc]

/-- No clause begins in a text without its first letter. -/
theorem findAfter_append {before : List Char} (h : ∀ c ∈ before, c.toUpper ≠ 'C')
    (inWord : Bool) (s : List Char) :
    findAfter inWord (before ++ ' ' :: s) = findAfter false s := by
  have hnone (inWord : Bool) {c : Char} (hc : c.toUpper ≠ 'C') (s : List Char) :
      (if inWord then none else comment? (c :: s)) = none := by
    cases inWord
    · exact comment?_cons_of_ne hc s
    · rfl
  induction before generalizing inWord with
  | nil =>
    have hblank : Unicode.isWordPart ' ' = false := by decide
    rw [List.nil_append, findAfter, hnone inWord (by decide), hblank]
  | cons c before ih =>
    rw [List.forall_mem_cons] at h
    rw [List.cons_append, findAfter, hnone inWord h.1]
    exact ih h.2 _

theorem untilLast_concat (hs : s ≠ []) (quote : Char) :
    untilLast quote (s ++ [quote]) = some s := by
  obtain ⟨c, body, hbody⟩ := List.exists_cons_of_ne_nil (List.reverse_ne_nil_iff.mpr hs)
  have hsame : (c :: body).reverse = s := by rw [← hbody, List.reverse_reverse]
  simp [untilLast, ← hsame]

theorem findAfter_of_comment? (h : comment? s = some comment) :
    findAfter false s = some comment := by
  cases s with
  | nil => cases h
  | cons c s => simp [findAfter, h]

/-- The comment of a clause runs to the last quote of the text. -/
theorem findAfter_comment (hs : s ≠ []) :
    findAfter false ("COMMENT '".toList ++ s ++ ['\'']) = some s := by
  have hquoted : comment? ("COMMENT '".toList ++ s ++ ['\'']) =
      untilLast '\'' (s ++ ['\'']) := by
    rfl
  exact findAfter_of_comment? (hquoted.trans (untilLast_concat hs '\''))

end CommentClause

-- ---------------------------------------------------------------------------
-- Columns
-- ---------------------------------------------------------------------------

namespace Column

open Text

theorem mentions_constraintText (column : Column) :
    mentions "PRIMARY KEY" (column.constraintText ++ " COMMENT ") = column.primaryKey ∧
    mentions "NOT NULL" (column.constraintText ++ " COMMENT ") =
      (!column.primaryKey && column.notNull) ∧
    mentions "UNIQUE" (column.constraintText ++ " COMMENT ") = column.unique := by
  unfold constraintText
  cases column.primaryKey <;> cases column.notNull <;> cases column.unique <;> decide +kernel

theorem find_constraintText (column : Column) {comment : String} (hc : comment ≠ "") :
    CommentClause.find (column.constraintText ++ " COMMENT '" ++ comment ++ "'") =
      some comment := by
  have hplain : column.constraintText.toList.all (·.toUpper != 'C') = true := by
    unfold constraintText
    cases column.primaryKey <;> cases column.notNull <;> cases column.unique <;> rfl
  have htext : (column.constraintText ++ " COMMENT '" ++ comment ++ "'").toList =
      column.constraintText.toList ++ ' ' :: ("COMMENT '".toList ++ comment.toList ++ ['\'']) := by
    simp
  rw [CommentClause.find, htext, CommentClause.findAfter_append (by simpa using hplain),
    CommentClause.findAfter_comment (by simpa using hc), Option.map_some, String.ofList_toList]

/-- The words stand among the constraints or in the comment, never across the quote between them. -/
theorem mentions_text (column : Column) {words : String} (hw : words ≠ "")
    (hq : '\'' ∉ words.toList) (comment : String) :
    mentions words (column.constraintText ++ " COMMENT '" ++ comment ++ "'") =
      (mentions words (column.constraintText ++ " COMMENT ") || mentions words comment) := by
  have hopen : " COMMENT '" = " COMMENT " ++ "'" := rfl
  have htext : column.constraintText ++ " COMMENT '" ++ comment ++ "'" =
      column.constraintText ++ " COMMENT " ++ "'" ++ (comment ++ "'" ++ "") := by
    simp only [hopen, String.append_assoc, String.append_empty]
  have hempty : mentions words "" = false := by
    simpa [mentions, occursIn, Unicode.upperCase, Unicode.upperChars] using hw
  rw [htext, mentions_quote hq, mentions_quote hq, hempty, Bool.or_false]

theorem setConstraint_eq (column : Column) (text : String) :
    column.setConstraint text =
      { column with
        primaryKey := mentions "PRIMARY KEY" text
        notNull := mentions "PRIMARY KEY" text || mentions "NOT NULL" text
        unique := mentions "UNIQUE" text
        comment := CommentClause.find text } := rfl

/-- The constraint text of a column with a comment behind it gives the column that comment and the
flags that it has or that the comment mentions. So it reads back exactly if the comment mentions no
constraint that the column does not have. -/
theorem setConstraint_constraintText (column : Column)
    (hk : column.primaryKey = true → column.notNull = true) {comment : String} (hc : comment ≠ "") :
    column.setConstraint (column.constraintText ++ " COMMENT '" ++ comment ++ "'") =
      { column with
        comment := some comment
        primaryKey := column.primaryKey || mentions "PRIMARY KEY" comment
        notNull := column.notNull || mentions "PRIMARY KEY" comment || mentions "NOT NULL" comment
        unique := column.unique || mentions "UNIQUE" comment } ∧
    (column.setConstraint (column.constraintText ++ " COMMENT '" ++ comment ++ "'") =
        { column with comment := some comment } ↔
      (mentions "PRIMARY KEY" comment = true → column.primaryKey = true) ∧
      (mentions "NOT NULL" comment = true → column.notNull = true) ∧
      (mentions "UNIQUE" comment = true → column.unique = true)) := by
  obtain ⟨hprimary, hnull, hunique⟩ := mentions_constraintText column
  have hflag : (column.primaryKey || mentions "PRIMARY KEY" comment ||
      (!column.primaryKey && column.notNull || mentions "NOT NULL" comment)) =
      (column.notNull || mentions "PRIMARY KEY" comment || mentions "NOT NULL" comment) := by
    cases hp : column.primaryKey
    · simp [Bool.or_assoc, Bool.or_left_comm]
    · simp [hk hp]
  rw [setConstraint_eq, find_constraintText column hc,
    mentions_text column (by decide) (by decide), mentions_text column (by decide) (by decide),
    mentions_text column (by decide) (by decide), hprimary, hnull, hunique, hflag]
  refine ⟨rfl, ?_⟩
  simp only [Column.mk.injEq, Bool.or_assoc, Bool.or_eq_left_iff_imp, Bool.or_eq_true, true_and,
    and_true]
  constructor
  · rintro ⟨hn, hp, hu⟩
    exact ⟨hp, fun h => hn (.inr h), hu⟩
  · rintro ⟨hp, hn, hu⟩
    refine ⟨?_, hp, hu⟩
    rintro (h | h)
    · exact hk (hp h)
    · exact hn h

/-- Quotes, line feeds and further clauses in a comment do no harm. -/
theorem setConstraint_constraintText_of_quotes :
    ((new "a" "int").setPrimaryKey true).setConstraint
        ("PRIMARY KEY COMMENT '" ++ "a 'key',\nCOMMENT 'primary key'" ++ "'") =
      { (new "a" "int").setPrimaryKey true with
        comment := some "a 'key',\nCOMMENT 'primary key'" } := by
  refine (setConstraint_constraintText ((new "a" "int").setPrimaryKey true) (fun _ => rfl)
    (by decide)).2.mpr ⟨fun _ => rfl, ?_, ?_⟩ <;> decide +kernel

/-- A comment makes a column unique. -/
theorem unique_of_comment :
    (new "a" "int").unique = false ∧
      (new "a" "int").setConstraint
          ((new "a" "int").constraintText ++ " COMMENT '" ++ "unique id" ++ "'") =
        { new "a" "int" with comment := some "unique id", unique := true } := by
  decide +kernel

end Column

end TableSchema
