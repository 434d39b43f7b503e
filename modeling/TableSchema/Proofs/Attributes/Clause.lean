import TableSchema.Proofs.Attributes.Written
import TableSchema.Proofs.Grammar.Column

/-!
# Clauses of attributes

A `Clause` is an attribute as someone writes it: in which of its spellings, and with which value
between which quotes. The rule of its kind reads a clause and stops behind it, unless what follows
goes on with a cast or with `KEY`; the rules of other kinds do not read it at all. So it does not
matter in which order the kinds are tried.
-/

namespace TableSchema

open Rule Scan

namespace Attribute

-- ---------------------------------------------------------------------------
-- Descriptions
-- ---------------------------------------------------------------------------

/-- A value without a cast: a literal or a word. -/
inductive Constant where
  | literal (l : Literal)
  | word (w : Word)

def Constant.token : Constant → Token
  | literal l => .literal l
  | word w => .value w

def Constant.text : Constant → String
  | literal l => String.ofList l.body
  | word w => w.text

/-- An identifier: a word or a quoted name. -/
inductive Name where
  | word (w : Word)
  | quoted (name : QuotedName)

def Name.token : Name → Token
  | word w => .lexeme (.word w)
  | quoted name => .lexeme (.name name.quote name.text)

def Name.text : Name → String
  | word w => w.text
  | quoted name => name.text

def keywordTokens (words : List String) : List Token := words.map fun w => .lexeme (.keyword w)

inductive Clause where
  | notNull
  | null
  /-- `AUTO_INCREMENT`, or without the underscore. -/
  | autoIncrement (underscore : Bool)
  /-- `PRIMARY` or `UNIQUE`, with `KEY` or without. -/
  | key (marker : KeyMarker) (full : Bool)
  | defaultValue (value : Constant)
  | comment (value : Constant)
  | encoding (codec : Word)
  | distKey
  | sortKey
  /-- `CHARACTER SET` or `CHARSET`, with an equals sign or without. -/
  | characterSet (long : Bool) (equals : Bool) (name : Name)

namespace Clause

def value : Clause → Attribute
  | notNull => .nullability .notNull
  | null => .nullability .null
  | autoIncrement _ => .autoIncrement
  | key marker _ => .key marker
  | defaultValue value => .defaultValue value.text
  | comment value => .comment value.text
  | encoding codec => .encoding codec.text
  | distKey => .distKey
  | sortKey => .sortKey
  | characterSet _ _ name => .characterSet name.text

def kind (c : Clause) : Kind := c.value.kind

def keywordOf : KeyMarker → String
  | .primary => "PRIMARY"
  | .unique => "UNIQUE"

/-- The word with which a clause begins. -/
def opening : Clause → String
  | notNull => "NOT"
  | null => "NULL"
  | autoIncrement underscore => if underscore then "AUTO_INCREMENT" else "AUTOINCREMENT"
  | key marker _ => keywordOf marker
  | defaultValue _ => "DEFAULT"
  | comment _ => "COMMENT"
  | encoding _ => "ENCODE"
  | distKey => "DISTKEY"
  | sortKey => "SORTKEY"
  | characterSet long .. => if long then "CHARACTER" else "CHARSET"

/-- What stands behind the first word of a clause. -/
def more : Clause → List Token
  | notNull => keywordTokens ["NULL"]
  | key _ full => if full then keywordTokens ["KEY"] else []
  | defaultValue value | comment value => [value.token]
  | encoding codec => [.lexeme (.word codec)]
  | characterSet long equals name =>
    (if long then keywordTokens ["SET"] else []) ++
      ((if equals then [.equals] else []) ++ [name.token])
  | null | autoIncrement _ | distKey | sortKey => []

def tokens (c : Clause) : List Token := .lexeme (.keyword c.opening) :: c.more

theorem opening_mem_words (c : Clause) : c.opening ∈ c.kind.words := by
  unfold kind
  cases c with
  | autoIncrement underscore =>
    cases underscore <;> simp [opening, value, Attribute.kind, Kind.words]
  | key marker => cases marker <;> simp [opening, keywordOf, value, Attribute.kind, Kind.words]
  | characterSet long => cases long <;> simp [opening, value, Attribute.kind, Kind.words]
  | null => exact List.mem_cons_of_mem _ (List.mem_cons_self ..)
  | _ => exact List.mem_cons_self ..

end Clause

theorem Kind.mem_all (kind : Kind) : kind ∈ Kind.all := by cases kind <;> decide

theorem Kind.isCapital_words (kind : Kind) : kind.words.all isCapital = true := by
  cases kind <;> rfl

theorem Kind.ne_nil_of_mem_words {kind : Kind} (h : w ∈ kind.words) : [] ≠ w.toList := by
  have hall : ∀ kind ∈ Kind.all, ∀ w ∈ kind.words, [] ≠ w.toList := by decide
  exact hall kind kind.mem_all w h

/-- No word begins clauses of two kinds. -/
theorem Kind.eq_of_mem_words {kind other : Kind} (h : w ∈ kind.words) (ho : w ∈ other.words) :
    kind = other := by
  have hall : ∀ kind ∈ Kind.all, ∀ other ∈ Kind.all, ∀ w ∈ kind.words, w ∈ other.words →
      kind = other := by decide
  exact hall kind kind.mem_all other other.mem_all w h ho

-- ---------------------------------------------------------------------------
-- Tokens that are read
-- ---------------------------------------------------------------------------

/-- What comes next goes on neither with a cast nor with `KEY`. -/
structure Follows (s : List Char) : Prop where
  colon : (skipTrivia s).head? ≠ some ':'
  key : nextCapitals s ≠ "KEY".toList

theorem read_literal_eq_none (hs : skipTrivia s = c :: u) (hc : c ≠ quote) :
    (literal quote).read s = none := by
  rw [read_literal, hs, quoted, if_neg hc]

theorem read_symbol_eq_none (text : String) (ht : text.toList = c :: u)
    (hs : (skipTrivia s).head? ≠ some c) : (symbol text).read s = none := by
  rw [read_symbol, afterSymbol?_eq_none_iff, ht]
  rintro ⟨tail, htail⟩
  exact hs (by rw [← htail]; rfl)

namespace Written

variable {rest s : List Char}

theorem read_word {w : Word} (h : Written rest [.lexeme (.word w)] s) :
    word.read s = some (w.text, rest) := by
  obtain ⟨hn, hrest⟩ := h.nextWord_word
  cases hrest
  rw [Rule.read_word, hn, if_neg w.ne_nil]
  rfl

theorem read_keywords {words : List String} (hw : words.all isCapital = true)
    (h : Written rest (keywordTokens words) s) : (keywords words).read s = some ((), rest) := by
  induction words generalizing s with
  | nil => cases h; rfl
  | cons w words ih =>
    rw [List.all_cons, Bool.and_eq_true] at hw
    obtain ⟨hread, hrest⟩ := h.read_keyword hw.1
    show (keyword w >>= fun _ => keywords words).read s = _
    rw [read_bind, hread]
    exact ih hw.2 hrest

theorem read_anyKeyword {words : List String} {w : String} (hw : words.all isCapital = true)
    (hm : w ∈ words) (h : Written rest [.lexeme (.keyword w)] s) :
    (anyKeyword words).read s = some ((), rest) := by
  obtain ⟨-, hrest⟩ := h.read_keyword (List.all_eq_true.mp hw w hm)
  cases hrest
  rw [Rule.read_anyKeyword hw]
  exact if_pos (List.mem_map.mpr ⟨w, hm, h.nextCapitals_eq.symm⟩)

/-- A name ends at its quote if that is not doubled. -/
theorem read_identifier {name : Name} (h : Written rest [name.token] s) :
    (identifier []).read s = some (name.text, rest) := by
  cases name with
  | word w =>
    obtain ⟨hn, hrest⟩ := h.nextWord_word
    cases hrest
    rw [read_identifier_of_nextWord (hn ▸ w.ne_nil), hn]
    rfl
  | quoted name =>
    obtain ⟨u, s', hs, hu, hends, hrest⟩ := h.skipTrivia_eq
    cases hrest
    cases hu with
    | lexeme hu =>
      cases hu
      have hquote : name.quote.char = '`' ∨ name.quote.char = '"' := by
        cases name.quote <;> decide
      have hquoted : quotedName.read s = some (name.text, rest) := by
        rw [read_quotedName, hs, List.cons_append, List.append_assoc, quoted_eq_some_iff]
        refine ⟨_, _, _, rfl, hquote, readLiteral_doubleQuotes _ _ hends, ?_⟩
        rw [undoubleQuotes_doubleQuotes, String.ofList_toList]
      rw [identifier, read_orElse, hquoted]
      rfl

theorem read_equals {ts : List Token} (h : Written rest (.equals :: ts) s) :
    ∃ s', (symbol "=").read s = some ((), s') ∧ Written rest ts s' := by
  obtain ⟨u, s', hs, hu, -, hrest⟩ := h.skipTrivia_eq
  cases hu
  refine ⟨s', ?_, hrest⟩
  rw [Rule.read_symbol, hs]
  exact afterSymbol?_eq_some_iff.mpr rfl

theorem head?_name {name : Name} {ts : List Token} (h : Written rest (name.token :: ts) s) :
    (skipTrivia s).head? ≠ some '=' := by
  obtain ⟨u, s', hs, hu, -, -⟩ := h.skipTrivia_eq
  rw [hs]
  cases name with
  | word w =>
    cases hu with
    | lexeme hu =>
      cases hu
      obtain ⟨c, u, hw, hc⟩ := w.exists_cons
      rw [hw]
      exact fun he => ne_of_isWordChar hc (by decide +kernel) (Option.some.inj he)
  | quoted name =>
    cases hu with
    | lexeme hu =>
      cases hu
      cases name.quote <;> exact fun he => absurd (Option.some.inj he) (by decide)

theorem read_literal {l : Literal} (h : Written rest [.literal l] s) :
    (literal l.quote.char).read s = some (String.ofList l.body, rest) := by
  obtain ⟨u, s', hs, hu, hends, hrest⟩ := h.skipTrivia_eq
  cases hu
  cases hrest
  rw [Rule.read_literal, hs, List.cons_append, List.append_assoc, quoted_eq_some_iff]
  refine ⟨_, _, _, rfl, rfl, l.closed.readLiteral ?_ hends, rfl⟩
  cases l.quote <;> rfl

theorem read_bare {w : Word} (h : Written rest [.value w] s) (stopAtCast : Bool) :
    (bare stopAtCast).read s = some (w.text, rest) := by
  obtain ⟨u, s', hs, hu, hends, hrest⟩ := h.skipTrivia_eq
  cases hu
  cases hrest
  obtain ⟨c, u, hw, hc⟩ := w.exists_cons
  have hstop : endsBare stopAtCast rest = true := by
    have hends : endsBare false rest = true := hends
    cases rest with
    | nil => rfl
    | cons => simp_all [endsBare]
  have hbegins : endsBare stopAtCast (w.letters ++ rest) = false := by
    rw [hw]
    exact endsBare_of_isWordChar hc
  rw [Rule.read_bare, hs, hbegins, pastBare_word w.accepted hstop, List.length_append,
    Nat.add_sub_cancel, List.take_left]
  rfl

/-- A value is read alike where a cast may follow and where it may not. -/
theorem read_constant {v : Constant} (h : Written rest [v.token] s) (stopAtCast : Bool) :
    (literal '\'' <|> literal '"' <|> bare stopAtCast).read s = some (v.text, rest) := by
  obtain ⟨u, s', hs, hu, -, -⟩ := h.skipTrivia_eq
  rw [read_orElse, read_orElse]
  cases v with
  | literal l =>
    have hl : (literal l.quote.char).read s = some (String.ofList l.body, rest) := h.read_literal
    cases hu
    cases hq : l.quote with
    | single =>
      rw [hq] at hl
      rw [show literal '\'' = literal LiteralQuote.single.char from rfl, hl]
      rfl
    | double =>
      rw [hq] at hl hs
      rw [read_literal_eq_none hs (by decide),
        show literal '"' = literal LiteralQuote.double.char from rfl, hl]
      rfl
  | word w =>
    cases hu
    obtain ⟨c, u, hw, hc⟩ := w.exists_cons
    rw [hw] at hs
    rw [read_literal_eq_none hs (ne_of_isWordChar hc (by decide +kernel)),
      read_literal_eq_none hs (ne_of_isWordChar hc (by decide +kernel)), h.read_bare]
    rfl

theorem read_value {v : Constant} (h : Written rest [v.token] s) (hf : Follows rest) :
    Value.rule.read s = some (v.text, rest) := by
  have hcast : Value.cast.read rest = none := by
    rw [Value.cast, read_seqRight, read_symbol_eq_none "::" rfl hf.colon]
    rfl
  have hcastExpression : Value.castExpression.read (skipTrivia s) = none := by
    rw [Value.castExpression, read_bind, Value.operand, h.from_token.read_constant true,
      Option.bind_some, read_bind, hcast]
    rfl
  rw [Value.rule, read_orElse, read_map, read_source, hcastExpression]
  exact h.read_constant false

end Written

namespace Clause

variable {rest s : List Char}

theorem isCapital_opening (c : Clause) : isCapital c.opening = true :=
  List.all_eq_true.mp c.kind.isCapital_words _ c.opening_mem_words

theorem read_key {marker : KeyMarker} {full : Bool}
    (h : Written rest (key marker full).tokens s) (hf : Follows rest) :
    (rule .key).read s = some (.key marker, rest) := by
  obtain ⟨hread, hmore⟩ := h.read_keyword (isCapital_opening _)
  have hmarker : (keyword "PRIMARY" *> pure (Attribute.key .primary) <|>
      keyword "UNIQUE" *> pure (Attribute.key .unique)).read s =
        some (.key marker, afterWord s) := by
    rw [read_orElse, read_seqRight, read_seqRight]
    cases marker with
    | primary =>
      have hprimary : (keyword "PRIMARY").read s = some ((), afterWord s) := hread
      rw [hprimary]
      rfl
    | unique =>
      have hunique : (keyword "UNIQUE").read s = some ((), afterWord s) := hread
      have hprimary : nextCapitals s ≠ "PRIMARY".toList := by
        rw [h.nextCapitals_eq]
        exact (by decide : "UNIQUE".toList ≠ "PRIMARY".toList)
      rw [read_keyword_of_ne rfl hprimary, hunique]
      rfl
  have hfull : ∃ found, (present (keyword "KEY")).read (afterWord s) = some (found, rest) := by
    rw [read_present]
    cases full with
    | false =>
      cases hmore
      rw [read_keyword_of_ne rfl hf.key]
      exact ⟨false, rfl⟩
    | true =>
      obtain ⟨hkey, hrest⟩ := Written.read_keyword (w := "KEY") rfl hmore
      cases hrest
      rw [hkey]
      exact ⟨true, rfl⟩
  obtain ⟨found, hfull⟩ := hfull
  rw [rule, read_seqLeft, hmarker, Option.bind_some, hfull]
  rfl

theorem read_characterSet {long equals : Bool} {name : Name}
    (h : Written rest (characterSet long equals name).tokens s) :
    (rule .characterSet).read s = some (.characterSet name.text, rest) := by
  have hset : ∃ middle,
      (keywords ["CHARACTER", "SET"] <|> keyword "CHARSET").read s = some ((), middle) ∧
      Written rest ((if equals then [.equals] else []) ++ [name.token]) middle := by
    rw [read_orElse]
    cases long with
    | true =>
      have h : Written rest (keywordTokens ["CHARACTER", "SET"] ++ _) s := h
      obtain ⟨middle, hset, hrest⟩ := Written.append_iff.mp h
      rw [hset.read_keywords rfl]
      exact ⟨middle, rfl, hrest⟩
    | false =>
      obtain ⟨hread, hrest⟩ := Written.read_keyword (w := "CHARSET") rfl h
      have hcharacter : nextCapitals s ≠ "CHARACTER".toList := by
        rw [h.nextCapitals_eq]
        exact (by decide : "CHARSET".toList ≠ "CHARACTER".toList)
      rw [read_keywords_of_ne _ rfl hcharacter, hread]
      exact ⟨_, rfl, hrest⟩
  obtain ⟨middle, hset, hname⟩ := hset
  have hequals : ∃ found behind, (present (symbol "=")).read middle = some (found, behind) ∧
      Written rest [name.token] behind := by
    rw [read_present]
    cases equals with
    | true =>
      obtain ⟨behind, hread, hrest⟩ := Written.read_equals hname
      rw [hread]
      exact ⟨true, behind, rfl, hrest⟩
    | false =>
      rw [read_symbol_eq_none "=" rfl (Written.head?_name hname)]
      exact ⟨false, middle, rfl, hname⟩
  obtain ⟨found, behind, hequals, hname⟩ := hequals
  rw [rule, read_bind, hset, Option.bind_some, read_bind, hequals, Option.bind_some, read_map,
    hname.read_identifier]
  rfl

/-- The rule of its kind reads a clause and stops behind it. -/
theorem read_rule {c : Clause} (h : Written rest c.tokens s) (hf : Follows rest) :
    (rule c.kind).read s = some (c.value, rest) := by
  obtain ⟨hread, hmore⟩ := h.read_keyword c.isCapital_opening
  cases c with
  | notNull =>
    have hkeywords : (keywords ["NOT", "NULL"]).read s = some ((), rest) :=
      Written.read_keywords rfl h
    show (rule .nullability).read s = _
    rw [rule, read_orElse, read_seqRight, hkeywords]
    rfl
  | null =>
    have hnull : (keyword "NULL").read s = some ((), afterWord s) := hread
    have hnot : nextCapitals s ≠ "NOT".toList := by
      rw [h.nextCapitals_eq]
      decide
    cases hmore
    show (rule .nullability).read s = _
    rw [rule, read_orElse, read_seqRight, read_keywords_of_ne _ rfl hnot, read_seqRight, hnull]
    rfl
  | autoIncrement underscore =>
    have hany : (anyKeyword ["AUTO_INCREMENT", "AUTOINCREMENT"]).read s = some ((), rest) := by
      cases underscore <;> exact Written.read_anyKeyword rfl (by simp [opening]) h
    show (rule .autoIncrement).read s = _
    rw [rule, read_seqRight, hany]
    rfl
  | key marker full => exact read_key h hf
  | defaultValue value =>
    have hdefault : (keyword "DEFAULT").read s = some ((), afterWord s) := hread
    show (rule .defaultValue).read s = _
    rw [rule, read_seqRight, hdefault, Option.bind_some, read_map, Written.read_value hmore hf]
    rfl
  | comment value =>
    have hcomment : (keyword "COMMENT").read s = some ((), afterWord s) := hread
    show (rule .comment).read s = _
    rw [rule, read_seqRight, hcomment, Option.bind_some, read_map, Written.read_value hmore hf]
    rfl
  | encoding codec =>
    have hencode : (keyword "ENCODE").read s = some ((), afterWord s) := hread
    show (rule .encoding).read s = _
    rw [rule, read_seqRight, hencode, Option.bind_some, read_map, Written.read_word hmore]
    rfl
  | distKey =>
    have hdistKey : (keyword "DISTKEY").read s = some ((), afterWord s) := hread
    cases hmore
    show (rule .distKey).read s = _
    rw [rule, read_seqRight, hdistKey]
    rfl
  | sortKey =>
    have hsortKey : (keyword "SORTKEY").read s = some ((), afterWord s) := hread
    cases hmore
    show (rule .sortKey).read s = _
    rw [rule, read_seqRight, hsortKey]
    rfl
  | characterSet long equals name => exact read_characterSet h

/-- The rules of other kinds do not read it. -/
theorem read_other {c : Clause} (h : Written rest c.tokens s) {kind : Kind} (hk : kind ≠ c.kind) :
    (rule kind).read s = none := by
  refine read_eq_none fun w hw he => hk ?_
  obtain rfl : c.opening = w := String.toList_inj.mp (h.nextCapitals_eq.symm.trans he)
  exact Kind.eq_of_mem_words hw c.opening_mem_words

end Clause

end Attribute

end TableSchema
