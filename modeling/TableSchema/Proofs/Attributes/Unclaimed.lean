import TableSchema.Proofs.Attributes.Clause

/-!
# Text that no clause claims

What no rule of a pending kind reads is skipped by the token, and the rules are tried again behind
each token. So text between clauses is skipped as a whole if no clause of a pending kind begins at
one of its words and goes on with what follows, and if each of its tokens is skipped as one: a name
in double quotes is taken for a literal, in which a backslash escapes.
-/

namespace TableSchema

open Rule Scan

namespace Attribute

-- ---------------------------------------------------------------------------
-- Tokens that are skipped
-- ---------------------------------------------------------------------------

theorem pastToken_of_nextWord (h : nextWord s ≠ []) : pastToken s = afterWord s := by
  rw [nextWord] at h
  rw [pastToken, afterWord]
  cases hs : skipTrivia s with
  | nil => rw [hs] at h; exact absurd rfl h
  | cons c rest =>
    cases hc : isWordChar c with
    | false =>
      rw [hs, List.takeWhile_cons, hc] at h
      exact absurd rfl h
    | true =>
      have hopen : c ≠ '(' := ne_of_isWordChar hc (by decide +kernel)
      simp [isQuote_of_isWordChar hc, hopen, hc]

namespace Token

/-- The token may stand where a name or an equals sign is wanted. -/
def beginsName : Token → Bool
  | lexeme (.symbol _) | group _ => false
  | literal l => l.quote == .double
  | lexeme _ | value _ | equals => true

/-- Whether a clause that begins with the word may go on with the next token, of which there is none
at the end of the item. Most clauses need no more than their word. -/
def goesOn (w : String) (next : Option Token) : Bool :=
  match w with
  | "NOT" => next.any (·.capitals == "NULL".toList)
  | "CHARACTER" => next.any (·.capitals == "SET".toList)
  | "CHARSET" => next.any (·.beginsName)
  | "ENCODE" => next.any (·.isWord)
  | "DEFAULT" | "COMMENT" => next.isSome
  | _ => true

/-- A clause of the kind begins with the token and goes on with the next one. -/
def Opens (t : Token) (next : Option Token) (kind : Kind) : Prop :=
  ∃ w ∈ kind.words, t.capitals = w.toList ∧ goesOn w next = true

instance (t : Token) (next : Option Token) (kind : Kind) : Decidable (t.Opens next kind) := by
  unfold Opens
  infer_instance

/-- The token is skipped as a whole: it is no part of a list or a group, and a name in double quotes
is closed as a literal too. -/
def Whole : Token → Prop
  | lexeme (.name .doubleQuote text) => LiteralBody '"' true (doubleQuotes '"' text.toList)
  | lexeme (.symbol mark) => mark ∉ [.openParenthesis, .closeParenthesis, .comma]
  | lexeme _ | value _ | literal _ | equals | group _ => True

/-- Each of the tokens is skipped as a whole, and with none of them a clause of these kinds begins,
the other tokens and those behind them being what it may go on with. -/
def Unclaimed (pending : List Kind) (behind : List Token) : List Token → Prop
  | [] => True
  | t :: ts =>
    (t.Whole ∧ ∀ kind ∈ pending, ¬ t.Opens (ts ++ behind).head? kind) ∧ Unclaimed pending behind ts

theorem isWord_of_capitals {t : Token} (h : t.capitals ≠ []) : t.isWord = true := by
  by_contra hw
  exact h (capitals_of_not_word (by simpa using hw))

theorem beginsName_of_isWord {t : Token} (h : t.isWord = true) : t.beginsName = true := by
  cases t with
  | lexeme l =>
    cases l with
    | keyword | word | name => rfl
    | symbol => cases h
  | value | equals => rfl
  | literal | group => cases h

variable {t : Token}

theorem Spells.head_inside (h : t.Spells u) (ht : t.Whole) :
    ∃ c s, u = c :: s ∧ c ≠ ',' ∧ c ≠ ')' := by
  cases hw : t.isWord with
  | true =>
    obtain ⟨v, rfl, -⟩ := h.eq_word hw
    obtain ⟨c, s, hv, hc⟩ := v.exists_cons
    exact ⟨c, s, hv, ne_of_isWordChar hc (by decide +kernel),
      ne_of_isWordChar hc (by decide +kernel)⟩
  | false =>
    cases h with
    | lexeme h =>
      cases h with
      | keyword | word => cases hw
      | name quote => exact ⟨_, _, rfl, by cases quote <;> decide⟩
      | symbol mark =>
        have hmark : mark ∉ [Symbol.openParenthesis, .closeParenthesis, .comma] := ht
        refine ⟨_, _, rfl, ?_⟩
        revert hmark
        cases mark <;> decide
    | value => cases hw
    | literal l => exact ⟨_, _, rfl, by cases l.quote <;> decide⟩
    | equals | group => exact ⟨_, _, rfl, by decide⟩

end Token

namespace Written

variable {rest s : List Char} {t : Token}

theorem atItemEnd_eq_false {ts : List Token} (h : Written rest (t :: ts) s) (ht : t.Whole) :
    atItemEnd s = false := by
  obtain ⟨u, s', hs, hu, -, -⟩ := h.skipTrivia_eq
  obtain ⟨c, u, rfl, hcomma, hclose⟩ := hu.head_inside ht
  simp [atItemEnd, hs, hcomma, hclose]

theorem pastToken_eq (h : Written rest [t] s) (ht : t.Whole) : pastToken s = rest := by
  cases hw : t.isWord with
  | true =>
    obtain ⟨v, -, -, hn, hrest⟩ := h.nextWord_eq hw
    cases hrest
    exact pastToken_of_nextWord (hn ▸ v.ne_nil)
  | false =>
    obtain ⟨u, s', hs, hu, hends, hrest⟩ := h.skipTrivia_eq
    cases hrest
    cases hu with
    | lexeme hu =>
      cases hu with
      | keyword | word => cases hw
      | name quote text =>
        have hquote : isQuote quote.char = true := by cases quote <;> rfl
        have hbody : LiteralBody quote.char (escapesIn quote.char)
            (doubleQuotes quote.char text.toList) := by
          cases quote with
          | backtick => exact literalBody_doubleQuotes text.toList
          | doubleQuote => exact ht
        have hpast := hbody.pastLiteral hquote hends
        simp [pastToken, hs, hquote, hpast]
      | symbol mark =>
        have hmark : mark ∉ [Symbol.openParenthesis, .closeParenthesis, .comma] := ht
        have hopen : mark.char ≠ '(' := by
          revert hmark
          cases mark <;> decide
        have hother : isQuote mark.char = false ∧ isWordChar mark.char = false := by
          cases mark <;> decide +kernel
        simp [pastToken, hs, hopen, hother]
    | value => cases hw
    | literal l =>
      have hquote : isQuote l.quote.char = true := by cases l.quote <;> rfl
      have hescapes : escapesIn l.quote.char = true := by cases l.quote <;> rfl
      have hbody : LiteralBody l.quote.char (escapesIn l.quote.char) l.body := hescapes ▸ l.closed
      have hpast := hbody.pastLiteral hquote hends
      simp [pastToken, hs, hquote, hpast]
    | equals =>
      have hother : isQuote '=' = false ∧ isWordChar '=' = false := by decide +kernel
      simp [pastToken, hs, hother]
    | group hinner =>
      have hpast := hinner.pastGroup 0 rest
      rw [pastGroup_cons] at hpast
      simp [pastToken, hs, hpast, isQuote]

end Written

end Attribute

-- ---------------------------------------------------------------------------
-- Clauses that do not go on
-- ---------------------------------------------------------------------------

namespace Attribute

theorem head?_of_atItemEnd (h : atItemEnd s = true) :
    (skipTrivia s).head? ∈ [none, some ',', some ')'] := by
  rw [atItemEnd] at h
  cases hs : skipTrivia s with
  | nil => decide
  | cons c rest =>
    rw [hs] at h
    simpa using h

theorem nextWord_of_atItemEnd (h : atItemEnd s = true) : nextWord s = [] := by
  by_contra hn
  have hword := (head?_any_isWordChar s).mpr hn
  have hhead := head?_of_atItemEnd h
  simp only [List.mem_cons, List.not_mem_nil, or_false] at hhead
  obtain hs | hs | hs := hhead <;> rw [hs] at hword <;> revert hword <;> decide +kernel

theorem nextCapitals_of_atItemEnd (h : atItemEnd s = true) : nextCapitals s = [] := by
  rw [nextCapitals, nextWord_of_atItemEnd h]
  rfl

/-- No value begins there. -/
theorem read_value_of_atItemEnd (h : atItemEnd s = true) : Value.rule.read s = none := by
  have hliteral (t : List Char) (ht : skipTrivia t = skipTrivia s) {quote : Char}
      (hq : some quote ∉ [none, some ',', some ')']) : (literal quote).read t = none := by
    have hhead := head?_of_atItemEnd h
    rw [read_literal, ht]
    cases hs : skipTrivia s with
    | nil => rfl
    | cons c u =>
      rw [quoted, if_neg]
      rintro rfl
      rw [hs] at hhead
      exact hq hhead
  have hbare (t : List Char) (ht : skipTrivia t = skipTrivia s) (stopAtCast : Bool) :
      (bare stopAtCast).read t = none := by
    have hhead := head?_of_atItemEnd h
    rw [read_bare, ht, if_pos]
    cases hs : skipTrivia s with
    | nil => rfl
    | cons c u =>
      rw [hs] at hhead
      have hc : c = ',' ∨ c = ')' := by simpa using hhead
      rcases hc with rfl | rfl <;> rfl
  have hvalue (t : List Char) (ht : skipTrivia t = skipTrivia s) (stopAtCast : Bool) :
      (literal '\'' <|> literal '"' <|> bare stopAtCast).read t = none := by
    rw [read_orElse, read_orElse, hliteral t ht (by decide), hliteral t ht (by decide), hbare t ht]
    rfl
  have hcast : Value.castExpression.read (skipTrivia s) = none := by
    rw [Value.castExpression, read_bind, Value.operand, hvalue _ (skipTrivia_skipTrivia s)]
    rfl
  rw [Value.rule, read_orElse, read_map, read_source, hcast]
  exact hvalue s rfl false

theorem read_identifier_eq_none (hword : nextWord s = [])
    (hquote : (skipTrivia s).head? ∉ [some '`', some '"']) : (identifier []).read s = none := by
  have hletter : (skipTrivia s).head?.any (fun c => isWordChar c || [].contains c) = false := by
    simpa using fun h => (head?_any_isWordChar s).mp h hword
  have hquoted : quotedName.read s = none := by
    rw [read_quotedName]
    cases hs : skipTrivia s with
    | nil => rfl
    | cons c u =>
      rw [hs] at hquote
      exact if_neg fun hc => hquote (by simpa using hc)
  rw [identifier, read_orElse, hquoted, read_map, read_run1, hletter]
  rfl

namespace Written

section

variable {rest s : List Char} {ts : List Token} (h : Written rest ts s)
  (hend : ts = [] → atItemEnd rest = true)

include h hend

/-- The next word is that of the next token, and there is none at the end of the item. -/
theorem nextCapitals_ne (hw : w ≠ []) (hn : ts.head?.any (·.capitals == w) = false) :
    nextCapitals s ≠ w := by
  cases ts with
  | nil =>
    cases h
    rw [nextCapitals_of_atItemEnd (hend rfl)]
    exact hw.symm
  | cons t ts =>
    rw [h.nextCapitals_eq]
    simpa using hn

theorem nextWord_of_not_word (hn : ts.head?.any (·.isWord) = false) : nextWord s = [] := by
  cases ts with
  | nil =>
    cases h
    exact nextWord_of_atItemEnd (hend rfl)
  | cons t ts => exact h.nextWord_eq_nil (by simpa using hn)

theorem read_word_eq_none (hn : ts.head?.any (·.isWord) = false) : word.read s = none := by
  rw [Rule.read_word, if_pos (h.nextWord_of_not_word hend hn)]

theorem read_value_eq_none (hn : ts.head?.isSome = false) : Value.rule.read s = none := by
  cases ts with
  | nil =>
    cases h
    exact read_value_of_atItemEnd (hend rfl)
  | cons => cases hn

theorem head?_of_not_beginsName (hn : ts.head?.any (·.beginsName) = false) :
    (skipTrivia s).head? ∉ [some '=', some '`', some '"'] := by
  cases ts with
  | nil =>
    cases h
    have hhead := head?_of_atItemEnd (hend rfl)
    simp only [List.mem_cons, List.not_mem_nil, or_false] at hhead
    obtain hs | hs | hs := hhead <;> rw [hs] <;> decide
  | cons t ts =>
    have hn : t.beginsName = false := by simpa using hn
    obtain ⟨u, s', hs, hu, -, -⟩ := h.skipTrivia_eq
    rw [hs]
    cases hu with
    | lexeme hu =>
      cases hu with
      | symbol mark =>
        show some mark.char ∉ _
        cases mark <;> decide
      | keyword | word | name => cases hn
    | literal l =>
      cases hq : l.quote with
      | single => exact (by decide : some '\'' ∉ [some '=', some '`', some '"'])
      | double => simp [Token.beginsName, hq] at hn
    | group => exact (by decide : some '(' ∉ [some '=', some '`', some '"'])
    | value | equals => cases hn

theorem read_equals_eq_none (hn : ts.head?.any (·.beginsName) = false) :
    (symbol "=").read s = none :=
  read_symbol_eq_none "=" rfl fun he =>
    h.head?_of_not_beginsName hend hn (he ▸ List.mem_cons_self ..)

theorem read_name_eq_none (hn : ts.head?.any (·.beginsName) = false) :
    (identifier []).read s = none := by
  refine read_identifier_eq_none (h.nextWord_of_not_word hend ?_) fun hq =>
    h.head?_of_not_beginsName hend hn (List.mem_cons_of_mem _ hq)
  rw [Option.any_eq_false_iff_get] at hn ⊢
  exact fun hs => Bool.eq_false_iff.mpr fun hw =>
    Bool.eq_false_iff.mp (hn hs) (Token.beginsName_of_isWord hw)

end

end Written

theorem read_nullability_eq_none (h : nextCapitals s = "NOT".toList)
    (hmore : nextCapitals (afterWord s) ≠ "NULL".toList) : (rule .nullability).read s = none := by
  have hnull : nextCapitals s ≠ "NULL".toList := h ▸ by decide
  rw [rule, read_orElse, read_seqRight, read_seqRight, read_keyword_of_ne rfl hnull]
  show (((keyword "NOT" >>= fun _ => keywords ["NULL"]).read s).bind _).or _ = _
  rw [read_bind, read_keyword_of_eq rfl h, Option.bind_some, read_keywords_of_ne _ rfl hmore]
  rfl

theorem read_characterSet_eq_none (h : nextCapitals s = "CHARACTER".toList)
    (hmore : nextCapitals (afterWord s) ≠ "SET".toList) : (rule .characterSet).read s = none := by
  have hcharset : nextCapitals s ≠ "CHARSET".toList := h ▸ by decide
  rw [rule, read_bind, read_orElse, read_keyword_of_ne rfl hcharset]
  show (((keyword "CHARACTER" >>= fun _ => keywords ["SET"]).read s).or _).bind _ = _
  rw [read_bind, read_keyword_of_eq rfl h, Option.bind_some, read_keywords_of_ne _ rfl hmore]
  rfl

theorem read_charset_eq_none (h : nextCapitals s = "CHARSET".toList)
    (hequals : (symbol "=").read (afterWord s) = none)
    (hname : (identifier []).read (afterWord s) = none) : (rule .characterSet).read s = none := by
  have hcharacter : nextCapitals s ≠ "CHARACTER".toList := h ▸ by decide
  rw [rule, read_bind, read_orElse, read_keywords_of_ne _ rfl hcharacter,
    read_keyword_of_eq rfl h, Option.none_or, Option.bind_some, read_bind, read_present, hequals,
    Option.bind_some, read_map, hname]
  rfl

namespace Written

variable {rest s : List Char} {t : Token} {ts : List Token}

/-- A clause whose first word does not go on with the next token is not read. -/
theorem read_rule_eq_none {kind : Kind} (h : Written rest (t :: ts) s)
    (hend : ts = [] → atItemEnd rest = true) (ho : ¬ t.Opens ts.head? kind) :
    (rule kind).read s = none := by
  by_cases hopen : ∃ w ∈ kind.words, t.capitals = w.toList
  · obtain ⟨w, hw, he⟩ := hopen
    have hgo : Token.goesOn w ts.head? = false :=
      Bool.eq_false_iff.mpr fun hgo => ho ⟨w, hw, he, hgo⟩
    have hnext : nextCapitals s = w.toList := h.nextCapitals_eq.trans he
    have hmore : Written rest ts (afterWord s) := by
      have hword : t.isWord = true :=
        Token.isWord_of_capitals (he ▸ (Kind.ne_nil_of_mem_words hw).symm)
      obtain ⟨-, -, -, -, hmore⟩ := h.nextWord_eq hword
      exact hmore
    cases kind with
    | nullability =>
      obtain rfl | rfl : w = "NOT" ∨ w = "NULL" := by simpa [Kind.words] using hw
      · exact read_nullability_eq_none hnext (hmore.nextCapitals_ne hend (by decide) hgo)
      · cases hgo
    | defaultValue =>
      obtain rfl : w = "DEFAULT" := by simpa [Kind.words] using hw
      rw [rule, read_seqRight, read_keyword_of_eq rfl hnext, Option.bind_some, read_map,
        hmore.read_value_eq_none hend hgo]
      rfl
    | comment =>
      obtain rfl : w = "COMMENT" := by simpa [Kind.words] using hw
      rw [rule, read_seqRight, read_keyword_of_eq rfl hnext, Option.bind_some, read_map,
        hmore.read_value_eq_none hend hgo]
      rfl
    | encoding =>
      obtain rfl : w = "ENCODE" := by simpa [Kind.words] using hw
      rw [rule, read_seqRight, read_keyword_of_eq rfl hnext, Option.bind_some, read_map,
        hmore.read_word_eq_none hend hgo]
      rfl
    | characterSet =>
      obtain rfl | rfl : w = "CHARACTER" ∨ w = "CHARSET" := by simpa [Kind.words] using hw
      · exact read_characterSet_eq_none hnext (hmore.nextCapitals_ne hend (by decide) hgo)
      · exact read_charset_eq_none hnext (hmore.read_equals_eq_none hend hgo)
          (hmore.read_name_eq_none hend hgo)
    | autoIncrement | key =>
      simp only [Kind.words, List.mem_cons, List.not_mem_nil, or_false] at hw
      obtain rfl | rfl := hw <;> cases hgo
    | distKey | sortKey =>
      obtain rfl := List.mem_singleton.mp hw
      cases hgo
  · exact read_eq_none fun w hw hn => hopen ⟨w, hw, h.nextCapitals_eq.symm.trans hn⟩

end Written

end Attribute

namespace ColumnAttributes

open Attribute

theorem read_clause_eq_none {progress : Progress}
    (h : ∀ kind ∈ progress.pending, (Attribute.rule kind).read s = none) :
    (clause progress).read s = none := by
  rw [clause, read_map, read_firstOf_eq_none_iff.mpr fun p hp => ?_]
  · rfl
  · obtain ⟨kind, hk, rfl⟩ := List.mem_map.mp hp
    exact h kind hk

/-- A token with which no clause of a pending kind begins is skipped. -/
theorem read_of_unclaimed {progress : Progress} {t : Token} {ts : List Token}
    (h : Written rest (t :: ts) s) (hend : ts = [] → atItemEnd rest = true) (ht : t.Whole)
    (ho : ∀ kind ∈ progress.pending, ¬ t.Opens ts.head? kind) :
    ∃ middle, (clauseOrUnclaimed progress).read s = some (progress, middle) ∧
      Written rest ts middle := by
  have hclause : (clause progress).read s = none :=
    read_clause_eq_none fun kind hk => h.read_rule_eq_none hend (ho kind hk)
  have hparts : Written rest ([t] ++ ts) s := h
  obtain ⟨middle, hfirst, hmore⟩ := Written.append_iff.mp hparts
  refine ⟨middle, ?_, hmore⟩
  rw [clauseOrUnclaimed, read_orElse, hclause, Option.none_or, read_seqRight, read_unclaimed,
    h.atItemEnd_eq_false ht, hfirst.pastToken_eq ht]
  rfl

/-- So is a run of such tokens. -/
theorem read_iterate_of_unclaimed (progress : Progress) {ts behind : List Token}
    (h : Written rest (ts ++ behind) s) (hend : atItemEnd rest = true)
    (ht : Token.Unclaimed progress.pending behind ts) :
    ∃ middle, Written rest behind middle ∧
      (iterate clauseOrUnclaimed consumes_clauseOrUnclaimed progress).read s =
        (iterate clauseOrUnclaimed consumes_clauseOrUnclaimed progress).read middle := by
  induction ts generalizing s with
  | nil => exact ⟨s, h, rfl⟩
  | cons t ts ih =>
    obtain ⟨⟨hwhole, hopens⟩, hts⟩ := ht
    obtain ⟨after, hread, hmore⟩ := read_of_unclaimed h (fun _ => hend) hwhole hopens
    obtain ⟨middle, hbehind, hiterate⟩ := ih hmore hts
    refine ⟨middle, hbehind, ?_⟩
    rw [read_iterate, hread]
    exact hiterate

end ColumnAttributes

-- ---------------------------------------------------------------------------
-- Text between clauses
-- ---------------------------------------------------------------------------

namespace Attribute

/-- Text between clauses: a reference to columns of another table, which are given as the text
between the parentheses, or one more clause of a kind that has occurred. -/
inductive Filler where
  | references (table : OneOrMore Name) (columns : List Char)
      (onDelete onUpdate : Option ReferentialAction)
  | again (c : Clause)

namespace Filler

def opening : Filler → String
  | references .. => "REFERENCES"
  | again c => c.opening

/-- What stands behind the first word. -/
def more : Filler → List Token
  | references table columns onDelete onUpdate =>
    table.first.token :: (table.more.flatMap fun name => [.lexeme (.symbol .dot), name.token]) ++
      (.group columns ::
        (eventLexemes "DELETE" onDelete ++ eventLexemes "UPDATE" onUpdate).map .lexeme)
  | again c => c.more

def tokens (f : Filler) : List Token := .lexeme (.keyword f.opening) :: f.more

/-- The kind of a clause that comes again is not pending, and no clause of a pending kind begins
behind the first word. -/
structure Admissible (pending : List Kind) (behind : List Token) (f : Filler) : Prop where
  occurred : ∀ c, f = again c → c.kind ∉ pending
  unclaimed : Token.Unclaimed pending behind f.more

theorem Admissible.tokens {f : Filler} (h : f.Admissible pending behind) :
    Token.Unclaimed pending behind f.tokens := by
  refine ⟨⟨trivial, ?_⟩, h.unclaimed⟩
  rintro kind hk ⟨w, hw, he, -⟩
  obtain rfl : f.opening = w := String.toList_inj.mp he
  cases f with
  | references =>
    have hw : "REFERENCES" ∈ kind.words := hw
    revert hw
    cases kind <;> decide
  | again c =>
    have hkind : kind = c.kind := Kind.eq_of_mem_words hw c.opening_mem_words
    exact h.occurred c rfl (hkind ▸ hk)

end Filler

end Attribute

end TableSchema
