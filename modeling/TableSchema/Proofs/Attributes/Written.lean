import TableSchema.Proofs.Grammar.Description
import TableSchema.Proofs.Grammar.Token
import TableSchema.Proofs.Items.FirstWord

/-!
# Texts of attributes

`Written rest tokens s`: the text `s` consists of the tokens, white space and comments before each,
and of `rest`, which may be anything. The tokens are those of attribute clauses and of the text that
may stand between clauses, where a group in parentheses is one token. A token ends where the rules
that read it see its end. White space and comments end every token, and so do `,`, `)` and the end
of the text.
-/

namespace TableSchema

open Rule Scan

-- ---------------------------------------------------------------------------
-- Words, literals and groups
-- ---------------------------------------------------------------------------

theorem ne_of_isWordChar (h : isWordChar c = true) (hd : isWordChar d = false) : c ≠ d := by
  rintro rfl
  rw [h] at hd
  cases hd

theorem isQuote_of_isWordChar (h : isWordChar c = true) : isQuote c = false := by
  simp only [isQuote, Bool.or_eq_false_iff, beq_eq_false_iff_ne]
  exact ⟨⟨ne_of_isWordChar h (by decide +kernel), ne_of_isWordChar h (by decide +kernel)⟩,
    ne_of_isWordChar h (by decide +kernel)⟩

theorem endsBare_of_isWordChar (h : isWordChar c = true) :
    endsBare stopAtCast (c :: rest) = false := by
  have hne (d : Char) (hd : isWordChar d = false) : (c == d) = false :=
    beq_eq_false_iff_ne.mpr (ne_of_isWordChar h hd)
  simp [endsBare, isBlank_of_isWordChar h, hne ',' (by decide +kernel), hne ')' (by decide +kernel),
    hne '-' (by decide +kernel), hne '/' (by decide +kernel), hne ':' (by decide +kernel)]

/-- A word is a value without quotes. -/
theorem pastBare_word (hw : ∀ c ∈ u, isWordChar c = true) (h : endsBare stopAtCast rest = true) :
    pastBare stopAtCast 0 (u ++ rest) = rest := by
  induction u with
  | nil =>
    cases rest with
    | nil => rw [List.nil_append, pastBare]
    | cons c rest => rw [List.nil_append, pastBare_cons, h]; rfl
  | cons c u ih =>
    have hc : isWordChar c = true := hw c (List.mem_cons_self ..)
    rw [List.cons_append, pastBare_cons, endsBare_of_isWordChar hc, Bool.and_false,
      if_neg Bool.false_ne_true, if_neg (ne_of_isWordChar hc (by decide +kernel)),
      if_neg (ne_of_isWordChar hc (by decide +kernel)), isQuote_of_isWordChar hc,
      if_neg Bool.false_ne_true]
    exact ih fun d hd => hw d (List.mem_cons_of_mem _ hd)

/-- What may stand in a literal: quotes in pairs and, where backslashes escape, any character behind
one. -/
inductive LiteralBody (quote : Char) (escapes : Bool) : List Char → Prop where
  | nil : LiteralBody quote escapes []
  | escape (d : Char) : escapes = true → LiteralBody quote escapes body →
      LiteralBody quote escapes ('\\' :: d :: body)
  | pair : LiteralBody quote escapes body → LiteralBody quote escapes (quote :: quote :: body)
  | plain : c ≠ quote → (escapes && c == '\\') = false → LiteralBody quote escapes body →
      LiteralBody quote escapes (c :: body)

theorem LiteralBody.readLiteral (h : LiteralBody quote escapes body)
    (hq : (escapes && quote == '\\') = false) (hrest : rest.head? ≠ some quote) :
    readLiteral quote escapes (body ++ quote :: rest) = some (body, rest) := by
  induction h with
  | nil => rw [List.nil_append, readLiteral_quote hq, if_neg hrest]
  | escape d he _ ih =>
    subst he
    rw [List.cons_append, List.cons_append, readLiteral_escape, ih]
    rfl
  | pair _ ih =>
    rw [List.cons_append, List.cons_append, readLiteral_quote hq, List.head?_cons, if_pos rfl,
      List.tail_cons, ih]
    rfl
  | plain hc he _ ih => rw [List.cons_append, readLiteral_of_ne he hc, ih]; rfl

theorem LiteralBody.pastLiteral (h : LiteralBody quote (escapesIn quote) body)
    (hq : isQuote quote = true) (hrest : rest.head? ≠ some quote) :
    pastLiteral quote (body ++ quote :: rest) = rest := by
  have hescape : (escapesIn quote && quote == '\\') = false := by
    rw [Bool.and_eq_false_iff, beq_eq_false_iff_ne]
    refine .inr ?_
    rintro rfl
    cases hq
  rw [Scan.pastLiteral, h.readLiteral hescape hrest]

/-- Where backslashes do not escape, doubled quotes never close a literal. -/
theorem literalBody_doubleQuotes (text : List Char) :
    LiteralBody quote false (doubleQuotes quote text) := by
  induction text with
  | nil => exact .nil
  | cons c text ih =>
    rw [doubleQuotes]
    split
    next hc =>
      subst hc
      exact .pair ih
    next hc => exact .plain hc rfl ih

/-- The quotes of string literals. -/
inductive LiteralQuote where
  | single
  | double
  deriving DecidableEq, Repr

def LiteralQuote.char : LiteralQuote → Char
  | single => '\''
  | double => '"'

/-- A closed literal with its contents as they are written. -/
structure Literal where
  quote : LiteralQuote
  body : List Char
  closed : LiteralBody quote.char true body

/-- What may stand in a group: groups and literals that are closed, and other characters. -/
inductive Enclosed : List Char → Prop where
  | nil : Enclosed []
  | plain : isQuote c = false → c ≠ '(' → c ≠ ')' → Enclosed s → Enclosed (c :: s)
  | literal : isQuote quote = true → LiteralBody quote (escapesIn quote) body →
      s.head? ≠ some quote → Enclosed s → Enclosed (quote :: (body ++ quote :: s))
  | group : Enclosed contents → Enclosed s → Enclosed ('(' :: (contents ++ ')' :: s))

theorem Enclosed.pastGroup (h : Enclosed contents) (depth : Nat) (rest : List Char) :
    pastGroup depth (contents ++ ')' :: rest) = Scan.pastGroup depth (')' :: rest) := by
  induction h generalizing depth rest with
  | nil => rfl
  | plain hq ho hc _ ih =>
    rw [List.cons_append, pastGroup_cons, if_neg ho, if_neg hc, hq, if_neg Bool.false_ne_true, ih]
  | @literal quote body s hq hbody hs _ ih =>
    have hrest : (s ++ ')' :: rest).head? ≠ some quote := by
      cases s with
      | nil =>
        rintro ⟨⟩
        cases hq
      | cons => exact hs
    have hne (c : Char) (hc : isQuote c = false) : quote ≠ c := by
      rintro rfl
      rw [hq] at hc
      cases hc
    rw [List.cons_append, List.append_assoc, List.cons_append, pastGroup_cons, if_neg (hne _ rfl),
      if_neg (hne _ rfl), if_pos hq, hbody.pastLiteral hq hrest, ih]
  | @group contents s _ _ ihContents ih =>
    rw [List.cons_append, List.append_assoc, List.cons_append, pastGroup_cons, if_pos rfl,
      ihContents, pastGroup_cons, if_neg (by decide), if_pos rfl]
    exact ih depth rest

-- ---------------------------------------------------------------------------
-- Tokens
-- ---------------------------------------------------------------------------

namespace Attribute

/-- A lexeme of the grammar, a value that is a word or a literal, an equals sign, or a group with
what stands in it. -/
inductive Token where
  | lexeme (l : Lexeme)
  | value (w : Word)
  | literal (l : Literal)
  | equals
  | group (contents : List Char)

namespace Token

inductive Spells : Token → List Char → Prop where
  | lexeme : l.Spells u → Spells (lexeme l) u
  | value (w : Word) : Spells (value w) w.letters
  | literal (l : Literal) : Spells (literal l) (l.quote.char :: (l.body ++ [l.quote.char]))
  | equals : Spells equals ['=']
  | group : Enclosed contents → Spells (group contents) ('(' :: (contents ++ [')']))

theorem spells_keyword {w v : String} (hv : v.toList.all isWordChar = true) (hne : v.toList ≠ [])
    (hw : v.toList.map Char.toUpper = w.toList) : (lexeme (.keyword w)).Spells v.toList :=
  .lexeme (Lexeme.spells_keyword hv hne hw)

/-- The token ends before `rest`. -/
def Ends (rest : List Char) : Token → Prop
  | lexeme (.keyword _) | lexeme (.word _) => startsWord rest = false
  | lexeme (.name quote _) => rest.head? ≠ some quote.char
  | value _ => endsBare false rest = true
  | literal l => rest.head? ≠ some l.quote.char
  | lexeme (.symbol _) | equals | group _ => True

def isWord : Token → Bool
  | lexeme l => l.isWord
  | value _ => true
  | literal _ | equals | group _ => false

/-- The word of a token in capital letters. -/
def capitals : Token → List Char
  | lexeme l => l.capitals
  | value w => w.capitals
  | literal _ | equals | group _ => []

theorem capitals_of_not_word {t : Token} (h : t.isWord = false) : t.capitals = [] := by
  cases t with
  | lexeme l =>
    cases l with
    | keyword | word => cases h
    | name | symbol => rfl
  | value => cases h
  | literal | equals | group => rfl

theorem startsWord_of_endsBare (h : endsBare false rest = true) : startsWord rest = false := by
  cases rest with
  | nil => rfl
  | cons c rest =>
    cases hc : isWordChar c with
    | false => exact hc
    | true =>
      rw [endsBare_of_isWordChar hc] at h
      cases h

theorem startsWord_of_ends {t : Token} (h : t.Ends rest) (ht : t.isWord = true) :
    startsWord rest = false := by
  cases t with
  | lexeme l =>
    cases l with
    | keyword | word => exact h
    | name | symbol => cases ht
  | value => exact startsWord_of_endsBare h
  | literal | equals | group => cases ht

variable {t : Token}

theorem Spells.exists_cons (h : t.Spells u) : ∃ c s, u = c :: s ∧ beginsLexeme c = true := by
  cases h with
  | lexeme h => exact h.exists_cons
  | value w => exact (Lexeme.Spells.word w).exists_cons
  | literal l => exact ⟨_, _, rfl, by cases l.quote <;> decide⟩
  | equals => exact ⟨_, _, rfl, by decide⟩
  | group => exact ⟨_, _, rfl, by decide⟩

theorem Spells.eq_word (h : t.Spells u) (ht : t.isWord = true) :
    ∃ v : Word, u = v.letters ∧ v.capitals = t.capitals := by
  cases h with
  | lexeme h => exact h.eq_word ht
  | value w => exact ⟨w, rfl, rfl⟩
  | literal | equals | group => cases ht

theorem Spells.head_not_word (h : t.Spells u) (ht : t.isWord = false) :
    ∃ c s, u = c :: s ∧ isWordChar c = false := by
  cases h with
  | lexeme h => exact h.head_not_word ht
  | value => cases ht
  | literal l => exact ⟨_, _, rfl, by cases l.quote <;> decide +kernel⟩
  | equals => exact ⟨_, _, rfl, by decide +kernel⟩
  | group => exact ⟨_, _, rfl, by decide +kernel⟩

/-- Where a bare value ends every token does: at white space, a comment, `,`, `)` or the end. -/
theorem Ends.of_endsBare (h : endsBare false rest = true) : t.Ends rest := by
  have hquote (q : Char) (hq : endsBare false [q] = false) (hdash : q ≠ '-') (hslash : q ≠ '/') :
      rest.head? ≠ some q := by
    rintro hr
    obtain ⟨rest, rfl⟩ := List.head?_eq_some_iff.mp hr
    simp_all [endsBare]
  cases t with
  | lexeme l =>
    cases l with
    | keyword | word => exact startsWord_of_endsBare h
    | name quote => cases quote <;> exact hquote _ (by decide +kernel) (by decide) (by decide)
    | symbol => trivial
  | value => exact h
  | literal l =>
    show rest.head? ≠ some l.quote.char
    cases l.quote <;> exact hquote _ (by decide +kernel) (by decide) (by decide)
  | equals | group => trivial

/-- White space or a comment ends every token. -/
theorem Ends.of_trivia (h : Trivia gap) (hne : gap ≠ []) (s : List Char) : t.Ends (gap ++ s) := by
  refine .of_endsBare ?_
  cases h with
  | nil => exact absurd rfl hne
  | blank hc => simp [endsBare, hc]
  | line | block => simp [endsBare]

end Token

-- ---------------------------------------------------------------------------
-- Texts
-- ---------------------------------------------------------------------------

/-- The text begins with the tokens, trivia before each, and goes on with `rest`. -/
inductive Written (rest : List Char) : List Token → List Char → Prop where
  | nil : Written rest [] rest
  | cons : Trivia gap → t.Spells u → t.Ends s → Written rest ts s →
      Written rest (t :: ts) (gap ++ (u ++ s))

namespace Written

variable {rest s : List Char} {t : Token} {ts us : List Token}

theorem skipTrivia_eq (h : Written rest (t :: ts) s) :
    ∃ u s', skipTrivia s = u ++ s' ∧ t.Spells u ∧ t.Ends s' ∧ Written rest ts s' := by
  cases h with
  | cons hgap hu hends hrest =>
    refine ⟨_, _, ?_, hu, hends, hrest⟩
    obtain ⟨c, u, rfl, hc⟩ := hu.exists_cons
    rw [skipTrivia_append_of_trivia hgap, List.cons_append, skipTrivia_of_beginsLexeme hc]

theorem from_token (h : Written rest (t :: ts) s) : Written rest (t :: ts) (skipTrivia s) := by
  obtain ⟨u, s', hs, hu, hends, hrest⟩ := h.skipTrivia_eq
  exact hs ▸ .cons .nil hu hends hrest

/-- The tokens may be read in two parts. -/
theorem append_iff :
    Written rest (ts ++ us) s ↔ ∃ middle, Written middle ts s ∧ Written rest us middle := by
  induction ts generalizing s with
  | nil =>
    refine ⟨fun h => ⟨s, .nil, h⟩, ?_⟩
    rintro ⟨_, ⟨⟩, h⟩
    exact h
  | cons t ts ih =>
    constructor
    · rintro (_ | ⟨hgap, hu, hends, h⟩)
      obtain ⟨middle, hts, hus⟩ := ih.mp h
      exact ⟨middle, .cons hgap hu hends hts, hus⟩
    · rintro ⟨middle, _ | ⟨hgap, hu, hends, h⟩, hus⟩
      exact .cons hgap hu hends (ih.mpr ⟨middle, h, hus⟩)

theorem nextWord_eq (h : Written rest (t :: ts) s) (ht : t.isWord = true) :
    ∃ v : Word, v.capitals = t.capitals ∧ t.Spells v.letters ∧ nextWord s = v.letters ∧
      Written rest ts (afterWord s) := by
  obtain ⟨u, s', hs, hu, hends, hrest⟩ := h.skipTrivia_eq
  obtain ⟨v, rfl, hv⟩ := hu.eq_word ht
  obtain ⟨htake, hdrop⟩ := takeWhile_of_not_startsWord (fun _ => id) v.accepted
    (Token.startsWord_of_ends hends ht)
  refine ⟨v, hv, hu, ?_, ?_⟩
  · rw [nextWord, hs, htake]
  · rw [afterWord, hs, hdrop]; exact hrest

theorem nextWord_eq_nil (h : Written rest (t :: ts) s) (ht : t.isWord = false) :
    nextWord s = [] := by
  obtain ⟨u, s', hs, hu, -, -⟩ := h.skipTrivia_eq
  obtain ⟨c, u, rfl, hc⟩ := hu.head_not_word ht
  rw [nextWord, hs, List.cons_append, List.takeWhile_cons, if_neg (by simp [hc])]

theorem nextCapitals_eq (h : Written rest (t :: ts) s) : nextCapitals s = t.capitals := by
  cases ht : t.isWord with
  | true =>
    obtain ⟨v, hv, -, hn, -⟩ := h.nextWord_eq ht
    rw [nextCapitals, hn]
    exact hv
  | false =>
    rw [nextCapitals, h.nextWord_eq_nil ht, Token.capitals_of_not_word ht]
    rfl

theorem nextWord_word {w : Word} (h : Written rest (.lexeme (.word w) :: ts) s) :
    nextWord s = w.letters ∧ Written rest ts (afterWord s) := by
  obtain ⟨u, s', hs, hu, hends, hrest⟩ := h.skipTrivia_eq
  obtain ⟨htake, hdrop⟩ := takeWhile_of_not_startsWord (fun _ => id) w.accepted hends
  cases hu with
  | lexeme hu =>
    cases hu
    rw [nextWord, afterWord, hs, htake, hdrop]
    exact ⟨rfl, hrest⟩

theorem read_keyword {w : String} (hw : isCapital w = true)
    (h : Written rest (.lexeme (.keyword w) :: ts) s) :
    (keyword w).read s = some ((), afterWord s) ∧ Written rest ts (afterWord s) := by
  obtain ⟨-, -, -, -, hrest⟩ := h.nextWord_eq rfl
  exact ⟨read_keyword_of_eq hw h.nextCapitals_eq, hrest⟩

end Written

end Attribute

end TableSchema
