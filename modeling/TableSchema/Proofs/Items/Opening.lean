import TableSchema.Proofs.Grammar.Description
import TableSchema.Proofs.Grammar.Token
import TableSchema.Proofs.Items.FirstWord

/-!
# Texts that begin with lexemes

`Opening rest lexemes s`: the text `s` consists of the lexemes and of `rest`, which may be anything.
A type word and a length are read as they stand there. What `rest` holds may still extend the words
of the type, and it may set flags.
-/

namespace TableSchema

open Rule Scan

/-- The text begins with the lexemes, trivia before each, and goes on with `rest`. -/
inductive Opening (rest : List Char) : List Lexeme → List Char → Prop where
  | nil : Opening rest [] rest
  | cons : Trivia gap → lexeme.Spells u → (lexeme.isWord = true → startsWord s = false) →
    Opening rest lexemes s → Opening rest (lexeme :: lexemes) (gap ++ (u ++ s))

namespace Opening

variable {rest s : List Char} {ls : List Lexeme}

theorem skipTrivia_eq (h : Opening rest (l :: ls) s) :
    ∃ u s', skipTrivia s = u ++ s' ∧ l.Spells u ∧ (l.isWord = true → startsWord s' = false) ∧
      Opening rest ls s' := by
  cases h with
  | cons hgap hu hends hrest =>
    refine ⟨_, _, ?_, hu, hends, hrest⟩
    obtain ⟨c, u, rfl, hc⟩ := hu.exists_cons
    rw [skipTrivia_append_of_trivia hgap, List.cons_append, skipTrivia_of_beginsLexeme hc]

theorem nextWord_word {w : Word} (h : Opening rest (.word w :: ls) s) :
    nextWord s = w.letters ∧ Opening rest ls (afterWord s) := by
  obtain ⟨u, s', hs, hu, hends, hrest⟩ := h.skipTrivia_eq
  cases hu
  obtain ⟨htake, hdrop⟩ := takeWhile_of_not_startsWord (fun _ => id) w.accepted (hends rfl)
  rw [nextWord, afterWord, hs, htake, hdrop]
  exact ⟨rfl, hrest⟩

theorem nextWord_symbol {mark : Symbol} (h : Opening rest (.symbol mark :: ls) s) :
    nextWord s = [] := by
  obtain ⟨u, s', hs, hu, -, -⟩ := h.skipTrivia_eq
  cases hu
  have hmark : isWordChar mark.char = false := by cases mark <;> decide +kernel
  simp [nextWord, hs, hmark]

theorem read_symbol {mark : Symbol} (text : String) (ht : text.toList = [mark.char])
    (h : Opening rest (.symbol mark :: ls) s) :
    ∃ s', (symbol text).read s = some ((), s') ∧ Opening rest ls s' := by
  obtain ⟨u, s', hs, hu, -, hrest⟩ := h.skipTrivia_eq
  cases hu
  refine ⟨s', ?_, hrest⟩
  rw [Rule.read_symbol, hs, ht]
  exact afterSymbol?_eq_some_iff.mpr rfl

theorem symbol_eq_none {text : String} (mark : Symbol) (ht : text.toList = [mark.char])
    (h : Opening rest (l :: ls) s) (hl : l.mark? ≠ some mark) : (symbol text).read s = none := by
  obtain ⟨u, s', hs, hu, -, -⟩ := h.skipTrivia_eq
  obtain ⟨c, u, rfl, hc⟩ := hu.head_ne_mark hl
  rw [Rule.read_symbol, hs, ht, afterSymbol?_eq_none_iff, List.cons_append, List.cons_prefix_cons]
  rintro ⟨rfl, -⟩
  exact hc rfl

theorem read_number {d : Digits} (h : Opening rest (.word d.word :: ls) s) :
    ∃ s', number.read s = some (d.value, s') ∧ Opening rest ls s' := by
  obtain ⟨u, s', hs, hu, hends, hrest⟩ := h.skipTrivia_eq
  cases hu
  obtain ⟨htake, hdrop⟩ := takeWhile_of_not_startsWord (fun _ => isWordChar_of_isDigit)
    d.accepted (hends rfl)
  have hletters : d.word.letters = d.letters := rfl
  obtain ⟨c, u, hd, hc⟩ := d.exists_cons
  refine ⟨s', ?_, hrest⟩
  rw [number, read_map, read_run1, hs, hletters, htake, hdrop, if_pos (by simp [hd, hc])]
  rfl

end Opening

namespace TypeSpec

theorem modifier_eq_none (h : nextWord s = []) : modifier.read s = none := by
  have hne {w : String} (hw : w.toList ≠ []) : nextCapitals s ≠ w.toList := by
    rw [nextCapitals, h]
    exact Ne.symm hw
  refine read_firstOf_eq_none_iff.mpr fun p hp => ?_
  obtain ⟨words, hw, rfl⟩ := List.mem_map.mp hp
  simp only [modifiers, List.mem_cons, List.not_mem_nil, or_false] at hw
  rw [read_seqRight]
  rcases hw with rfl | rfl | rfl | rfl | rfl <;>
    rw [read_keywords_of_ne _ rfl (hne (by decide))] <;> rfl

theorem number_reads (d : LengthDescription) (h : Opening rest (d.numberLexeme :: ls) s) :
    ∃ s', (symbol "*" *> pure Length.any <|> Length.value <$> number).read s =
      some (d.number, s') ∧ Opening rest ls s' := by
  obtain ⟨length, scale⟩ := d
  cases length with
  | none =>
    obtain ⟨s', hs, hrest⟩ := h.read_symbol "*" rfl
    refine ⟨s', ?_, hrest⟩
    rw [read_orElse, read_seqRight, hs]
    rfl
  | some digits =>
    obtain ⟨s', hs, hrest⟩ := Opening.read_number (d := digits) h
    refine ⟨s', ?_, hrest⟩
    rw [read_orElse, read_seqRight, h.symbol_eq_none .star rfl nofun, read_map, hs]
    rfl

theorem scale_reads (d : LengthDescription)
    (h : Opening rest (d.scaleLexemes ++ [.symbol .closeParenthesis]) s) :
    ∃ s', (ifPresent (symbol ",") (option number) (pure none)).read s =
      some (d.scale.map Digits.value, s') ∧ Opening rest [.symbol .closeParenthesis] s' := by
  obtain ⟨length, scale⟩ := d
  cases scale with
  | none =>
    refine ⟨s, ?_, h⟩
    rw [read_ifPresent, h.symbol_eq_none .comma rfl (by decide)]
    rfl
  | some digits =>
    obtain ⟨s1, hcomma, h⟩ := h.read_symbol "," rfl
    obtain ⟨s2, hscale, h⟩ := Opening.read_number (d := digits) h
    refine ⟨s2, ?_, h⟩
    rw [read_ifPresent, hcomma]
    show (option number).read s1 = _
    rw [read_option, hscale]
    rfl

theorem lengthGroup_reads (d : LengthDescription) (h : Opening rest d.lexemes s) :
    lengthGroup.read s = some (d.value, rest) := by
  obtain ⟨s1, hopen, h⟩ := h.read_symbol "(" rfl
  obtain ⟨s2, hnumber, h⟩ := number_reads d h
  obtain ⟨s3, hscale, h⟩ := scale_reads d h
  have hunit : (present (anyKeyword ["CHAR", "BYTE"])).read s3 = some (false, s3) := by
    rw [read_present, read_anyKeyword_of_notMem rfl (by simp [nextCapitals, h.nextWord_symbol])]
  obtain ⟨s4, hclose, h⟩ := h.read_symbol ")" rfl
  cases h
  rw [lengthGroup, read_bind, hopen, Option.bind_some, read_bind, hnumber, Option.bind_some,
    read_bind, hscale, Option.bind_some, read_bind, hunit, Option.bind_some, read_bind, hclose]
  rfl

/-- A type word and a length are read as they stand, whatever comes behind them. Only a modifier that
comes next extends the word. -/
theorem reads_of_opening {t : Word} {d : LengthDescription}
    (h : Opening rest (.word t :: d.lexemes) s) :
    ∃ type behind, rule.read s = some (type, behind) ∧ Extends t.text type.words ∧
      (type.words = [t.text] ↔ ∀ m ∈ modifiers, ¬ Statement.comesNext m rest) ∧
      type.length = some d.number ∧ type.scale = d.scale.map Digits.value := by
  obtain ⟨ht, hd⟩ := h.nextWord_word
  have hword : word.read s = some (t.text, afterWord s) := by
    rw [read_word, ht, if_neg t.ne_nil]
    rfl
  obtain ⟨words, middle, type, behind, hwords, htype, hx, hm, hl, hsc⟩ := exists_read hword
  have hmiddle : (extend [t.text]).read (afterWord s) = some ([t.text], afterWord s) := by
    rw [extend, read_iterate, read_map, modifier_eq_none hd.nextWord_symbol]
    rfl
  cases hmiddle.symm.trans hwords
  have hgroup := lengthGroup_reads d hd
  obtain ⟨last, hlast⟩ := hm d.value rest hgroup
  rw [hgroup] at hl hsc
  exact ⟨type, behind, htype, hx, extend_eq_iff hlast, hl, hsc⟩

end TypeSpec

end TableSchema
