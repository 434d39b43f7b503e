import TableSchema.Proofs.Items.Opening
import TableSchema.Table

/-!
# What the first words make of an item

A word, a type and a length make a column, whatever comes behind them. The words `KEY` and `INDEX`
are not reserved but begin an index, so an item that they begin is dropped where a parenthesis shows.

An item that begins as a constraint is a constraint or a check if it can be read as one. If not, it
is a column whose name and type are the first two words.
-/

namespace TableSchema

open Rule Scan
open Statement (comesNext skipWord read_present_anyKeyword)

-- ---------------------------------------------------------------------------
-- Columns with a length
-- ---------------------------------------------------------------------------

namespace Item

/-- The words that a column may not have as its name unless it is quoted. Index words are not among
them: `key int` is a column. -/
def reservedWords : List String := "CHECK" :: constraintWords

/-- Whether the words open an index if a parenthesis follows: the second is the name of the index
or, behind its kind, one of the words for it. -/
def opensIndex (w t : Word) : Prop :=
  w.capitals ∈ ["KEY", "INDEX"].map String.toList ∨
    w.capitals ∈ ["FULLTEXT", "SPATIAL"].map String.toList ∧
      t.capitals ∈ ["KEY", "INDEX"].map String.toList

instance (w t : Word) : Decidable (opensIndex w t) :=
  decidable_of_iff _ <| or_congr List.contains_iff_mem <|
    and_congr List.contains_iff_mem List.contains_iff_mem

section

variable {w t : Word} {rest s : List Char} {ls : List Lexeme}

theorem nextCapitals_of_opening (h : Opening rest (.word w :: ls) s) :
    nextCapitals s = w.capitals := by
  rw [nextCapitals, h.nextWord_word.1]
  rfl

theorem beginsIndex_iff (h : Opening rest (.word w :: .word t :: ls) s) :
    beginsIndex s ↔ opensIndex w t := by
  have hw : (nextWord s).map Char.toUpper = w.capitals := nextCapitals_of_opening h
  rw [beginsIndex, opensIndex, skipWord, hw]
  by_cases hk : w.capitals ∈ ["FULLTEXT", "SPATIAL"].map String.toList
  · rw [if_pos hk, nextCapitals_of_opening h.nextWord_word.2]
    have hdisjoint : w.capitals ∉ ["KEY", "INDEX"].map String.toList := by
      simp only [List.map_cons, List.map_nil, List.mem_cons, List.not_mem_nil, or_false] at hk
      rcases hk with hk | hk <;> rw [hk] <;> decide
    simp only [hdisjoint, hk, false_or, true_and]
  · rw [if_neg hk, nextCapitals, hw]
    simp only [hk, false_and, or_false]

theorem index_reads (h : Opening rest (.word w :: .word t :: .symbol .openParenthesis :: ls) s)
    (hi : opensIndex w t) : ∃ behind, index.read s = some ((), behind) := by
  obtain ⟨found, hkind⟩ := read_present_anyKeyword ["FULLTEXT", "SPATIAL"] rfl s
  have hkey : (anyKeyword ["KEY", "INDEX"]).read (skipWord ["FULLTEXT", "SPATIAL"] s) =
      some ((), afterWord (skipWord ["FULLTEXT", "SPATIAL"] s)) := by
    rw [read_anyKeyword rfl]
    exact if_pos ((beginsIndex_iff h).mpr hi)
  -- Behind the index word stands a name or the parenthesis.
  obtain ⟨name, s', hname, hgroup⟩ : ∃ name s',
      (ifAhead (symbol "(") (pure none) (some <$> identifier [])).read
        (afterWord (skipWord ["FULLTEXT", "SPATIAL"] s)) = some (name, s') ∧
      ((symbol "(").read s').isSome := by
    obtain ⟨hw, ht⟩ := h.nextWord_word
    rw [skipWord]
    split
    next =>
      obtain ⟨s', hs, -⟩ := ht.nextWord_word.2.read_symbol "(" rfl
      refine ⟨none, afterWord (afterWord s), ?_, by rw [hs]; rfl⟩
      rw [read_ifAhead, hs]
      rfl
    next =>
      obtain ⟨s', hs, -⟩ := ht.nextWord_word.2.read_symbol "(" rfl
      refine ⟨some t.text, afterWord (afterWord s), ?_, by rw [hs]; rfl⟩
      have hne : nextWord (afterWord s) ≠ [] := by rw [ht.nextWord_word.1]; exact t.ne_nil
      rw [read_ifAhead, ht.symbol_eq_none .openParenthesis rfl (by rintro ⟨⟩), read_map,
        read_identifier_of_nextWord hne, ht.nextWord_word.1]
      rfl
  obtain ⟨behind, hbehind⟩ := restOfItem_reads s'
  refine ⟨behind, ?_⟩
  rw [index, read_bind, hkind, Option.bind_some, read_bind, hkey, Option.bind_some, read_bind,
    hname, Option.bind_some, read_bind, read_groupAhead, if_pos hgroup, Option.bind_some]
  exact hbehind

/-- A word, a type and a length make a column, whatever comes behind them, unless they read as an
index. The type is the word as it stands unless a modifier follows its length. -/
theorem read_of_opening {d : LengthDescription}
    (h : Opening rest (.word w :: .word t :: d.lexemes) s)
    (hw : w.capitals ∉ reservedWords.map String.toList) :
    if opensIndex w t then ∃ behind, rule.read s = some (none, behind)
    else ∃ c behind, rule.read s = some (some (column c), behind) ∧ c.name = w.text ∧
      TypeSpec.Extends t.text c.type.words ∧
      (c.type.words = [t.text] ↔ ∀ m ∈ TypeSpec.modifiers, ¬ comesNext m rest) ∧
      c.type.length = some d.number ∧ c.type.scale = d.scale.map Digits.value := by
  have hcapitals := nextCapitals_of_opening h
  rw [← hcapitals] at hw
  simp only [reservedWords, List.map_cons, List.mem_cons, not_or] at hw
  obtain ⟨hcheck, hconstraint⟩ := hw
  have hcheck : check.read s = none := by
    refine check_eq_none fun hm => ?_
    simp only [List.mem_cons, List.not_mem_nil, or_false] at hm
    rcases hm with hm | hm
    · exact hconstraint (hm ▸ List.mem_map_of_mem (by decide))
    · exact hcheck hm
  split
  next hi =>
    obtain ⟨behind, hindex⟩ := index_reads h hi
    refine ⟨behind, ?_⟩
    rw [rule, read_orElse, read_seqRight, dropped, read_orElse, hcheck, hindex]
    rfl
  next hi =>
    obtain ⟨hword, ht⟩ := h.nextWord_word
    obtain ⟨type, middle, htype, hx, hm, hl, hsc⟩ := TypeSpec.reads_of_opening ht
    have hname : (identifier []).read s = some (w.text, afterWord s) := by
      rw [read_identifier_of_nextWord (by rw [hword]; exact w.ne_nil), hword]
      rfl
    obtain ⟨attributes, behind, hcolumn⟩ := ColumnDefinition.exists_read hname htype
    refine ⟨⟨w.text, type, attributes⟩, behind, ?_, rfl, hx, hm, hl, hsc⟩
    rw [read_of_not_dropped hcheck (index_eq_none fun hb => hi ((beginsIndex_iff h).mp hb))
      (Constraint.read_eq_none hconstraint), hcolumn]
    rfl

end

theorem read_of_opening_of_attributes :
    Opening " not null".toList
      (.word ⟨"a".toList, by decide, List.all_eq_true.mp rfl⟩ ::
        .word ⟨"int".toList, by decide, List.all_eq_true.mp rfl⟩ ::
        LengthDescription.lexemes ⟨some ⟨"10".toList, by decide, List.all_eq_true.mp rfl⟩, none⟩)
      "a int (10) not null".toList ∧
    ∃ c behind, rule.read "a int (10) not null".toList = some (some (column c), behind) ∧
      c.name = "a" ∧ c.type.words = ["int"] ∧ c.type.length = some (.value 10) ∧
      c.type.scale = none := by
  have blank : Trivia [' '] := .blank rfl .nil
  have h : Opening " not null".toList
      (.word ⟨"a".toList, by decide, List.all_eq_true.mp rfl⟩ ::
        .word ⟨"int".toList, by decide, List.all_eq_true.mp rfl⟩ ::
        LengthDescription.lexemes ⟨some ⟨"10".toList, by decide, List.all_eq_true.mp rfl⟩, none⟩)
      "a int (10) not null".toList :=
    .cons .nil (.word ⟨['a'], _, _⟩) (fun _ => rfl) <|
    .cons blank (.word ⟨['i', 'n', 't'], _, _⟩) (fun _ => rfl) <|
    .cons blank (.symbol .openParenthesis) nofun <|
    .cons .nil (.word ⟨['1', '0'], _, _⟩) (fun _ => rfl) <|
    .cons .nil (.symbol .closeParenthesis) nofun .nil
  obtain ⟨c, behind, hread, hname, -, hwords, hlength⟩ := read_of_opening h (by decide)
  have hnone : TypeSpec.modifier.read " not null".toList = none := by decide +kernel
  exact ⟨h, c, behind, hread, hname, hwords.mpr ((TypeSpec.modifier_eq_none_iff _).mp hnone),
    hlength⟩

/-- The word `key` is not reserved, and yet a column of this name is dropped if it has a length. -/
theorem read_key_column :
    Opening [] (.word ⟨"key".toList, by decide, List.all_eq_true.mp rfl⟩ ::
        .word ⟨"varchar".toList, by decide, List.all_eq_true.mp rfl⟩ ::
        LengthDescription.lexemes ⟨some ⟨"10".toList, by decide, List.all_eq_true.mp rfl⟩, none⟩)
      "key varchar(10)".toList ∧
    "KEY" ∉ reservedWords ∧ rule.read "key varchar(10)".toList = some (none, []) := by
  refine ⟨?_, by decide, by decide +kernel⟩
  exact
    .cons .nil (.word ⟨['k', 'e', 'y'], _, _⟩) (fun _ => rfl) <|
    .cons (.blank rfl .nil) (.word ⟨['v', 'a', 'r', 'c', 'h', 'a', 'r'], _, _⟩) (fun _ => rfl) <|
    .cons .nil (.symbol .openParenthesis) nofun <|
    .cons .nil (.word ⟨['1', '0'], _, _⟩) (fun _ => rfl) <|
    .cons .nil (.symbol .closeParenthesis) nofun .nil

-- ---------------------------------------------------------------------------
-- Constraints
-- ---------------------------------------------------------------------------

/-- The words with which an item says that it is a constraint. -/
inductive DeclaresConstraint (s : List Char) : Prop where
  | primaryKey : comesNext ["PRIMARY", "KEY"] s → DeclaresConstraint s
  | foreignKey : comesNext ["FOREIGN", "KEY"] s → DeclaresConstraint s
  | named {name : String} : comesNext ["CONSTRAINT"] s →
    (identifier []).read (afterWord s) = some (name, rest) → DeclaresConstraint s

theorem DeclaresConstraint.nextCapitals_mem (h : DeclaresConstraint s) :
    nextCapitals s ∈ ["PRIMARY", "FOREIGN", "CONSTRAINT"].map String.toList := by
  cases h with
  | primaryKey h => rw [nextCapitals, h.1]; decide
  | foreignKey h => rw [nextCapitals, h.1]; decide
  | named h _ => rw [nextCapitals, h.1]; decide

theorem DeclaresConstraint.nextWord_ne_nil (h : DeclaresConstraint s) : nextWord s ≠ [] := by
  intro hn
  have := h.nextCapitals_mem
  rw [nextCapitals, hn] at this
  revert this
  decide

theorem DeclaresConstraint.index_eq_none (h : DeclaresConstraint s) : index.read s = none := by
  refine Item.index_eq_none (not_beginsIndex fun hm => ?_)
  have := h.nextCapitals_mem
  simp only [List.map_cons, List.map_nil, List.mem_cons, List.not_mem_nil, or_false] at this
  rcases this with h | h | h <;> rw [h] at hm <;> revert hm <;> decide

/-- Where the second word is a bare one the words read as a column and its type. -/
theorem DeclaresConstraint.column_read (h : DeclaresConstraint s)
    (hsecond : nextWord (afterWord s) ≠ []) :
    ∃ d rest, ColumnDefinition.rule.read s = some (d, rest) ∧
      d.name = String.ofList (nextWord s) ∧
      TypeSpec.Extends (String.ofList (nextWord (afterWord s))) d.type.words := by
  have hword := read_word (afterWord s)
  rw [if_neg hsecond] at hword
  obtain ⟨_, _, type, middle, -, htype, hx, -⟩ := TypeSpec.exists_read hword
  obtain ⟨attributes, rest, hcolumn⟩ := ColumnDefinition.exists_read
    (read_identifier_of_nextWord h.nextWord_ne_nil) htype
  exact ⟨_, rest, hcolumn, rfl, hx⟩

theorem DeclaresConstraint.column_eq_none (h : DeclaresConstraint s)
    (hsecond : nextWord (afterWord s) = []) : ColumnDefinition.rule.read s = none := by
  have htype : (TypeSpec.rule.orMiss .dataType).read (afterWord s) = none := by
    rw [orMiss, read_orElse, TypeSpec.rule, read_bind, read_word, if_pos hsecond]
    rfl
  rw [ColumnDefinition.rule, read_bind, orMiss, read_orElse,
    read_identifier_of_nextWord h.nextWord_ne_nil, Option.some_or, Option.bind_some, read_bind,
    htype]
  rfl

/-- An item that declares a constraint is read as a column exactly if it is neither a check nor a
constraint and its second word is not in quotes. The column has the first word as its name and the
second as its type. -/
theorem read_of_declaresConstraint (h : DeclaresConstraint s) :
    if (check.read s).isSome ∨ (Constraint.rule.read s).isSome ∨ nextWord (afterWord s) = [] then
      ∀ d rest, rule.read s ≠ some (some (column d), rest)
    else
      ∃ d rest, rule.read s = some (some (column d), rest) ∧
        d.name = String.ofList (nextWord s) ∧
        TypeSpec.Extends (String.ofList (nextWord (afterWord s))) d.type.words := by
  have hindex := h.index_eq_none
  cases hcheck : check.read s with
  | some x =>
    rw [if_pos (.inl rfl)]
    intro d rest hr
    rw [rule, read_orElse, read_seqRight, dropped, read_orElse, hcheck] at hr
    cases hr
  | none =>
    cases hconstraint : Constraint.rule.read s with
    | some x =>
      rw [if_pos (.inr (.inl rfl))]
      intro d rest hr
      rw [rule, read_orElse, read_seqRight, dropped, read_orElse, hcheck, hindex, read_orElse,
        read_map, hconstraint] at hr
      cases hr
    | none =>
      rw [read_of_not_dropped hcheck hindex hconstraint]
      split
      next hn =>
        rw [h.column_eq_none (by simpa using hn)]
        intro d rest hr
        cases hr
      next hn =>
        obtain ⟨d, rest, hd, hname, htype⟩ := h.column_read (by simpa using hn)
        exact ⟨d, rest, by rw [hd]; rfl, hname, htype⟩

theorem read_of_declaresConstraint_of_exclusion :
    DeclaresConstraint "constraint x exclude)".toList ∧
      ∃ d rest, rule.read "constraint x exclude)".toList = some (some (column d), rest) ∧
        d.name = "constraint" ∧ TypeSpec.Extends "x" d.type.words := by
  have hname : (identifier []).read (afterWord "constraint x exclude)".toList) =
      some ("x", " exclude)".toList) := by decide +kernel
  have h : DeclaresConstraint "constraint x exclude)".toList :=
    .named ⟨by decide +kernel, trivial⟩ hname
  have hread := read_of_declaresConstraint h
  have hfirst : nextWord "constraint x exclude)".toList = "constraint".toList := by
    decide +kernel
  have hsecond : nextWord (afterWord "constraint x exclude)".toList) = ['x'] := by
    decide +kernel
  rw [if_neg (by decide +kernel), hfirst, hsecond] at hread
  exact ⟨h, hread⟩

end Item

/-- A constraint of a kind that is not known becomes a column of the table. -/
theorem Table.columns_of_exclusion :
    ((Table.parse "CREATE TABLE t (a int, CONSTRAINT x EXCLUDE)" none).toOption.map fun t =>
      (t.columns.toList.map fun c => (c.name, c.dataType), t.constraints)) =
        some ([("a", "INT"), ("CONSTRAINT", "X")], []) := by
  decide +kernel

end TableSchema
