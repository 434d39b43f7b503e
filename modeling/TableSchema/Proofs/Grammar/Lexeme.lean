import TableSchema.Proofs.ScanLaws
import TableSchema.Proofs.TokenLaws

/-!
# Texts as lexemes

`Layout lexemes text`: the text consists of the lexemes in order, with white space and comments of
any kind and number before each and at the end. Where words meet something must stand between them.
Keywords may be written in any ASCII case.
-/

namespace TableSchema

open Scan Unicode

-- ---------------------------------------------------------------------------
-- Trivia
-- ---------------------------------------------------------------------------

/-- White space, line comments and closed block comments. -/
inductive Trivia : List Char → Prop where
  | nil : Trivia []
  | blank : isBlank c = true → Trivia s → Trivia (c :: s)
  | line : '\n' ∉ body → Trivia s → Trivia ('-' :: '-' :: (body ++ '\n' :: s))
  | block : ¬ ['*', '/'] <:+: body → Trivia s → Trivia ('/' :: '*' :: (body ++ '*' :: '/' :: s))

theorem pastLine_append (h : '\n' ∉ body) (s : List Char) : pastLine (body ++ '\n' :: s) = s := by
  induction body with
  | nil => rfl
  | cons c body ih =>
    simp only [List.mem_cons, not_or] at h
    rw [List.cons_append, pastLine, if_neg (Ne.symm h.1), ih h.2]

theorem pastBlock_append (h : ¬ ['*', '/'] <:+: body) (s : List Char) :
    pastBlock (body ++ '*' :: '/' :: s) = s := by
  induction body with
  | nil => rfl
  | cons c body ih =>
    rw [List.cons_append, pastBlock_cons, if_neg]
    · exact ih fun hi => h (hi.trans (List.suffix_cons c body).isInfix)
    · rintro ⟨rfl, hd⟩
      cases body with
      | nil => cases hd
      | cons d body =>
        obtain rfl : d = '/' := by simpa using hd
        exact h ⟨[], body, rfl⟩

theorem skipTrivia_append_of_trivia (h : Trivia gap) (s : List Char) :
    skipTrivia (gap ++ s) = skipTrivia s := by
  induction h with
  | nil => rfl
  | @blank c gap hc _ ih =>
    have hne (d : Char) (hd : isBlank d = false) : c ≠ d := by
      rintro rfl
      rw [hc] at hd
      cases hd
    rw [List.cons_append, skipTrivia_cons, if_neg, if_neg, if_pos hc, ih]
    · exact fun ho => hne '-' (by decide) (opensLine_cons.mp ho).1
    · exact fun ho => hne '/' (by decide) (opensBlock_cons.mp ho).1
  | @line body gap hb _ ih =>
    have heq : '-' :: '-' :: (body ++ '\n' :: gap) ++ s =
        '-' :: '-' :: (body ++ '\n' :: (gap ++ s)) := by simp
    rw [heq, skipTrivia_cons, if_neg, if_pos ⟨_, rfl⟩, List.tail_cons, pastLine_append hb, ih]
    exact fun ho => absurd (opensBlock_cons.mp ho).1 (by decide)
  | @block body gap hb _ ih =>
    have heq : '/' :: '*' :: (body ++ '*' :: '/' :: gap) ++ s =
        '/' :: '*' :: (body ++ '*' :: '/' :: (gap ++ s)) := by simp
    rw [heq, skipTrivia_cons, if_pos ⟨_, rfl⟩, List.tail_cons, pastBlock_append hb, ih]

-- ---------------------------------------------------------------------------
-- Lexemes
-- ---------------------------------------------------------------------------

/-- A run, not empty, of the characters that `accepts` names. -/
structure Run (accepts : Char → Bool) where
  letters : List Char
  ne_nil : letters ≠ []
  accepted : ∀ c ∈ letters, accepts c = true

abbrev Word := Run isWordChar

abbrev Digits := Run Char.isDigit

def Word.text (w : Word) : String := String.ofList w.letters

def Word.capitals (w : Word) : List Char := w.letters.map Char.toUpper

/-- Digits are written as a word. -/
def Digits.word (d : Digits) : Word where
  letters := d.letters
  ne_nil := d.ne_nil
  accepted c hc := isWordChar_of_isDigit (d.accepted c hc)

/-- The number that the digits write, cut to what a number can be. -/
def Digits.value (d : Digits) : Nat := Rule.numberValue d.letters

/-- The quotes of names. -/
inductive NameQuote where
  | backtick
  | doubleQuote
  deriving DecidableEq, Repr

def NameQuote.char : NameQuote → Char
  | backtick => '`'
  | doubleQuote => '"'

inductive Symbol where
  | openParenthesis
  | closeParenthesis
  | openBracket
  | closeBracket
  | comma
  | dot
  | star
  | semicolon
  deriving DecidableEq, Repr

def Symbol.char : Symbol → Char
  | openParenthesis => '('
  | closeParenthesis => ')'
  | openBracket => '['
  | closeBracket => ']'
  | comma => ','
  | dot => '.'
  | star => '*'
  | semicolon => ';'

inductive Lexeme where
  | keyword (word : String)
  | word (w : Word)
  | name (quote : NameQuote) (text : String)
  | symbol (mark : Symbol)

namespace Lexeme

/-- How a lexeme is written: a keyword in any ASCII case, a name with its quote doubled inside. -/
inductive Spells : Lexeme → List Char → Prop where
  | keyword (v : Word) : v.capitals = w.toList → Spells (keyword w) v.letters
  | word (w : Word) : Spells (word w) w.letters
  | name (quote : NameQuote) (text : String) :
    Spells (name quote text) (quote.char :: (doubleQuotes quote.char text.toList ++ [quote.char]))
  | symbol (mark : Symbol) : Spells (symbol mark) [mark.char]

theorem spells_keyword {w v : String} (hv : v.toList.all isWordChar = true) (hne : v.toList ≠ [])
    (hw : v.toList.map Char.toUpper = w.toList) : (keyword w).Spells v.toList :=
  .keyword ⟨v.toList, hne, List.all_eq_true.mp hv⟩ hw

def isWord : Lexeme → Bool
  | keyword _ | word _ => true
  | name .. | symbol _ => false

end Lexeme

/-- The text consists of the lexemes, with trivia before each and at the end. -/
inductive Layout : List Lexeme → List Char → Prop where
  | nil : Trivia gap → Layout [] gap
  | cons : Trivia gap → lexeme.Spells u → (lexeme.isWord = true → startsWord rest = false) →
      Layout lexemes rest → Layout (lexeme :: lexemes) (gap ++ (u ++ rest))

theorem isBlank_of_isWordChar (h : isWordChar c = true) : isBlank c = false := by
  have hall : blank.intervals.all (fun i => (List.range (i.2 + 1 - i.1)).all fun k =>
      !isWordChar (Char.ofNat (i.1 + k))) = true := by decide +kernel
  cases hb : isBlank c with
  | false => rfl
  | true =>
    obtain ⟨i, hi, hle⟩ := (blank.contains_iff c).mp hb
    have hk := List.all_eq_true.mp (List.all_eq_true.mp hall i hi) (c.toNat - i.1)
      (List.mem_range.mpr (by omega))
    rw [Nat.add_sub_cancel' hle.1, Char.ofNat_toNat, h] at hk
    cases hk

/-- A character with which a lexeme may begin. -/
def beginsLexeme (c : Char) : Bool := !isBlank c && c != '-' && c != '/'

theorem skipTrivia_of_beginsLexeme (h : beginsLexeme c = true) (s : List Char) :
    skipTrivia (c :: s) = c :: s := by
  simp only [beginsLexeme, Bool.and_eq_true, Bool.not_eq_true', bne_iff_ne, ne_eq] at h
  obtain ⟨⟨hb, hl⟩, hs⟩ := h
  rw [skipTrivia_cons, if_neg, if_neg, if_neg]
  · rw [hb]; exact Bool.false_ne_true
  · exact fun ho => hl (opensLine_cons.mp ho).1
  · exact fun ho => hs (opensBlock_cons.mp ho).1

theorem beginsLexeme_of_isWordChar (h : isWordChar c = true) : beginsLexeme c = true := by
  have hne (d : Char) (hd : isWordChar d = false) : (c != d) = true := by
    rw [bne_iff_ne]
    rintro rfl
    rw [h] at hd
    cases hd
  rw [beginsLexeme, isBlank_of_isWordChar h, hne '-' (by decide +kernel),
    hne '/' (by decide +kernel)]
  rfl

theorem Run.exists_cons (r : Run accepts) : ∃ c s, r.letters = c :: s ∧ accepts c = true := by
  cases h : r.letters with
  | nil => exact absurd h r.ne_nil
  | cons c s => exact ⟨c, s, rfl, r.accepted c (by rw [h]; exact List.mem_cons_self ..)⟩

theorem Lexeme.Spells.exists_cons {l : Lexeme} (h : l.Spells u) :
    ∃ c s, u = c :: s ∧ beginsLexeme c = true := by
  cases h with
  | keyword v _ =>
    obtain ⟨c, s, hv, hc⟩ := v.exists_cons
    exact ⟨c, s, hv, beginsLexeme_of_isWordChar hc⟩
  | word w =>
    obtain ⟨c, s, hw, hc⟩ := w.exists_cons
    exact ⟨c, s, hw, beginsLexeme_of_isWordChar hc⟩
  | name quote text => exact ⟨_, _, rfl, by cases quote <;> decide⟩
  | symbol mark => exact ⟨_, _, rfl, by cases mark <;> decide⟩

/-- What is left once trivia is skipped begins with the first lexeme. -/
theorem Layout.skipTrivia_eq (h : Layout (lexeme :: lexemes) s) :
    ∃ u rest, skipTrivia s = u ++ rest ∧ lexeme.Spells u ∧
      (lexeme.isWord = true → startsWord rest = false) ∧ Layout lexemes rest := by
  cases h with
  | cons hgap hu hends hrest =>
    refine ⟨_, _, ?_, hu, hends, hrest⟩
    obtain ⟨c, u, rfl, hc⟩ := hu.exists_cons
    rw [skipTrivia_append_of_trivia hgap, List.cons_append, skipTrivia_of_beginsLexeme hc]

theorem Layout.skipTrivia_nil (h : Layout [] s) : skipTrivia s = [] := by
  cases h with
  | nil hgap =>
    rw [← List.append_nil s, skipTrivia_append_of_trivia hgap, Scan.skipTrivia_nil]

end TableSchema
