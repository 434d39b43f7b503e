import TableSchema.Proofs.Grammar.Lexeme

/-!
# Rules as programs

`Program p` says how the rule `p` is put together from the rules that read tokens. It is data that
the rule itself is not: by recursion on it other readings of the grammar are computed, such as the
stretches of text that a run takes whole, or a run on byte offsets. The index ties each of them to
the rule that is run.
-/

namespace TableSchema.Rule

/-- Neither white space nor the slash that opens a comment. A run of such characters ends where
either begins. -/
def isSolid (c : Char) : Bool := !Unicode.isBlank c && c != '/'

theorem isSolid_of_isWordChar (h : isWordChar c = true) : isSolid c = true := by
  have hb := beginsLexeme_of_isWordChar h
  simp only [beginsLexeme, Bool.and_eq_true] at hb
  simp only [isSolid, Bool.and_eq_true]
  exact ⟨hb.1.1, hb.2⟩

inductive Program : {α : Type} → Rule α → Type 1 where
  | pure (a : α) : Program (Pure.pure a)
  | never : Program (never : Rule α)
  | miss (expected : Expectation) : Program (miss expected : Rule α)
  | keyword (w : String) : isCapital w = true → Program (keyword w)
  | symbol (text : String) : text.toList.all isSolid = true → Program (symbol text)
  | run1 (accepts : Char → Bool) : (∀ c, accepts c = true → isSolid c = true) →
    Program (run1 accepts)
  | quotedName : Program quotedName
  | literal (quote : Char) : Scan.isQuote quote = true → Program (literal quote)
  | bare (stopAtCast : Bool) : Program (bare stopAtCast)
  | unclaimed : Program unclaimed
  | bind {p : Rule α} {f : α → Rule β} : Program p → (∀ a, Program (f a)) → Program (p >>= f)
  | orElse {p q : Rule α} : Program p → Program q → Program (p <|> q)
  | ahead {p : Rule α} : Program p → Program (ahead p)
  | source {p : Rule α} : Program p → Program (source p)
  | loop {round : σ → Rule (Round σ β)} {advances : ∀ x, (round x).Advances} (x : σ) :
    (∀ x, Program (round x)) → Program (loop round advances x)

namespace Program

-- ---------------------------------------------------------------------------
-- Combinators
-- ---------------------------------------------------------------------------

def map (f : α → β) {p : Rule α} (P : Program p) : Program (f <$> p) := P.bind fun a => .pure (f a)

def seqRight {p : Rule α} {q : Rule β} (P : Program p) (Q : Program q) : Program (p *> q) :=
  P.bind fun _ => Q

def seqLeft {p : Rule α} {q : Rule β} (P : Program p) (Q : Program q) : Program (p <* q) :=
  P.bind fun a => Q.bind fun _ => .pure a

def branch (c : Prop) [d : Decidable c] {p q : Rule α} (P : Program p) (Q : Program q) :
    Program (if c then p else q) :=
  match d with
  | isTrue _ => P
  | isFalse _ => Q

def orMiss {p : Rule α} (P : Program p) (expected : Expectation) : Program (p.orMiss expected) :=
  P.orElse (.miss expected)

def option {p : Rule α} (P : Program p) : Program p.option := (P.map some).orElse (.pure none)

def present {p : Rule α} (P : Program p) : Program p.present :=
  (P.seqRight (.pure true)).orElse (.pure false)

def ifPresent {p : Rule α} {yes no : Rule β} (P : Program p) (Y : Program yes) (N : Program no) :
    Program (ifPresent p yes no) := P.present.bind fun found => branch (found = true) Y N

def ifAhead {p : Rule α} {yes no : Rule β} (P : Program p) (Y : Program yes) (N : Program no) :
    Program (ifAhead p yes no) := P.ahead.bind fun found => branch (found = true) Y N

def firstOf {rules : ι → Rule α} (P : ∀ i, Program (rules i)) :
    (is : List ι) → Program (firstOf (is.map rules))
  | [] => .never
  | i :: is => (P i).orElse (firstOf P is)

def iterate {step : σ → Rule σ} {consumes : ∀ x, (step x).Consumes} (P : ∀ x, Program (step x))
    (x : σ) : Program (iterate step consumes x) :=
  .loop x fun x => ((P x).map Round.again).orElse (.pure (Round.finish x))

def separated {item : Rule α} {separator : Rule Unit} {consumes : separator.Consumes}
    (P : Program item) (S : Program separator) : Program (separated item separator consumes) :=
  P.bind fun first => .loop [first] fun items =>
    S.ifPresent (P.map fun a => Round.again (items ++ [a])) (.pure (Round.finish items))

-- ---------------------------------------------------------------------------
-- Tokens
-- ---------------------------------------------------------------------------

def keywords : (words : List String) → words.all isCapital = true → Program (keywords words)
  | [], _ => .pure ()
  | w :: words, h =>
    have h : isCapital w = true ∧ words.all isCapital = true := by simpa using h
    (Program.keyword w h.1).bind fun _ => keywords words h.2

def anyKeyword : (words : List String) → words.all isCapital = true → Program (anyKeyword words)
  | [], _ => .never
  | w :: words, h =>
    have h : isCapital w = true ∧ words.all isCapital = true := by simpa using h
    (Program.keyword w h.1).orElse (anyKeyword words h.2)

def word : Program word := (Program.run1 _ fun _ => isSolid_of_isWordChar).map _

def number : Program number :=
  (Program.run1 _ fun _ h => isSolid_of_isWordChar (isWordChar_of_isDigit h)).map _

def identifier (extra : List Char) (h : extra.all isSolid = true) : Program (identifier extra) :=
  Program.quotedName.orElse <| map _ <| .run1 _ fun c hc => by
    rcases Bool.or_eq_true _ _ ▸ hc with hc | hc
    · exact isSolid_of_isWordChar hc
    · exact List.all_eq_true.mp h c (List.contains_iff_mem.mp hc)

end Program

end TableSchema.Rule
