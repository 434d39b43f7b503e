import TableSchema.Proofs.Grammar.Lexeme

/-!
# Rules on lexemes

`p.Reads before a after`: from every layout of the lexemes `before`, the rule `p` gives `a` and
leaves a layout of `after`. `p.Fails before`: from no layout of them does it give anything. What a
rule does to lexemes follows from what its parts do, so the grammar needs to look at trivia and
spelling in the rules of single tokens only.
-/

namespace TableSchema

open Scan

namespace Rule

def Reads (p : Rule α) (before : List Lexeme) (a : α) (after : List Lexeme) : Prop :=
  ∀ ⦃s⦄, Layout before s → ∃ rest, p.read s = some (a, rest) ∧ Layout after rest

def Fails (p : Rule α) (before : List Lexeme) : Prop :=
  ∀ ⦃s⦄, Layout before s → p.read s = none

-- ---------------------------------------------------------------------------
-- Sequence and choice
-- ---------------------------------------------------------------------------

theorem reads_pure (a : α) (ls : List Lexeme) : (pure a : Rule α).Reads ls a ls :=
  fun s h => ⟨s, rfl, h⟩

theorem reads_pure_of_eq {a b : α} (h : a = b) (ls : List Lexeme) :
    (pure a : Rule α).Reads ls b ls := by
  subst h
  exact reads_pure a ls

theorem fails_never (ls : List Lexeme) : (never : Rule α).Fails ls := fun _ _ => rfl

theorem Reads.bind {p : Rule α} {f : α → Rule β} (hp : p.Reads ls a ms) (hf : (f a).Reads ms b ns) :
    (p >>= f).Reads ls b ns := by
  intro s h
  obtain ⟨middle, hr, hm⟩ := hp h
  obtain ⟨rest, hr', hn⟩ := hf hm
  exact ⟨rest, by rw [read_bind, hr, Option.bind_some, hr'], hn⟩

theorem Fails.bind {p : Rule α} (f : α → Rule β) (hp : p.Fails ls) : (p >>= f).Fails ls := by
  intro s h
  rw [read_bind, hp h, Option.bind_none]

theorem Reads.bind_fails {p : Rule α} {f : α → Rule β} (hp : p.Reads ls a ms)
    (hf : (f a).Fails ms) : (p >>= f).Fails ls := by
  intro s h
  obtain ⟨middle, hr, hm⟩ := hp h
  rw [read_bind, hr, Option.bind_some, hf hm]

theorem Reads.orElse {p : Rule α} (hp : p.Reads ls a ms) (q : Rule α) :
    (p <|> q).Reads ls a ms := by
  intro s h
  obtain ⟨rest, hr, hm⟩ := hp h
  exact ⟨rest, by rw [read_orElse, hr, Option.some_or], hm⟩

theorem Fails.orElse {p q : Rule α} (hp : p.Fails ls) (hq : q.Reads ls a ms) :
    (p <|> q).Reads ls a ms := by
  intro s h
  obtain ⟨rest, hr, hm⟩ := hq h
  exact ⟨rest, by rw [read_orElse, hp h, Option.none_or, hr], hm⟩

theorem Fails.orElse_fails {p q : Rule α} (hp : p.Fails ls) (hq : q.Fails ls) :
    (p <|> q).Fails ls := by
  intro s h
  rw [read_orElse, hp h, hq h, Option.none_or]

theorem Reads.map {p : Rule α} (f : α → β) (hp : p.Reads ls a ms) : (f <$> p).Reads ls (f a) ms :=
  hp.bind (reads_pure _ _)

theorem Fails.map {p : Rule α} (f : α → β) (hp : p.Fails ls) : (f <$> p).Fails ls := hp.bind _

theorem Reads.seqRight {p : Rule α} {q : Rule β} (hp : p.Reads ls a ms) (hq : q.Reads ms b ns) :
    (p *> q).Reads ls b ns := hp.bind hq

theorem Fails.seqRight {p : Rule α} (q : Rule β) (hp : p.Fails ls) : (p *> q).Fails ls := hp.bind _

theorem Reads.seqLeft {p : Rule α} {q : Rule β} (hp : p.Reads ls a ms) (hq : q.Reads ms b ns) :
    (p <* q).Reads ls a ns := hp.bind (hq.bind (reads_pure _ _))

theorem Fails.seqLeft {p : Rule α} (q : Rule β) (hp : p.Fails ls) : (p <* q).Fails ls := hp.bind _

-- ---------------------------------------------------------------------------
-- Options and lookahead
-- ---------------------------------------------------------------------------

theorem Reads.orMiss {p : Rule α} (hp : p.Reads ls a ms) (expected : Expectation) :
    (p.orMiss expected).Reads ls a ms := hp.orElse _

theorem Reads.option {p : Rule α} (hp : p.Reads ls a ms) : p.option.Reads ls (some a) ms :=
  (hp.map some).orElse _

theorem Fails.option {p : Rule α} (hp : p.Fails ls) : p.option.Reads ls none ls :=
  (hp.map some).orElse (reads_pure none ls)

theorem Reads.present {p : Rule α} (hp : p.Reads ls a ms) : p.present.Reads ls true ms :=
  (hp.seqRight (reads_pure true ms)).orElse _

theorem Fails.present {p : Rule α} (hp : p.Fails ls) : p.present.Reads ls false ls :=
  (hp.seqRight _).orElse (reads_pure false ls)

theorem Reads.ifPresent {p : Rule α} {yes : Rule β} (hp : p.Reads ls a ms)
    (hy : yes.Reads ms b ns) (no : Rule β) : (ifPresent p yes no).Reads ls b ns :=
  hp.present.bind hy

theorem Fails.ifPresent {p : Rule α} {no : Rule β} (hp : p.Fails ls) (yes : Rule β)
    (hn : no.Reads ls b ms) : (ifPresent p yes no).Reads ls b ms :=
  hp.present.bind hn

theorem Reads.ahead {p : Rule α} (hp : p.Reads ls a ms) : p.ahead.Reads ls true ls := by
  intro s h
  obtain ⟨rest, hr, -⟩ := hp h
  exact ⟨s, by rw [read_ahead, hr]; rfl, h⟩

theorem Fails.ahead {p : Rule α} (hp : p.Fails ls) : p.ahead.Reads ls false ls :=
  fun s h => ⟨s, by rw [read_ahead, hp h]; rfl, h⟩

theorem Reads.ifAhead {p : Rule α} {yes : Rule β} (hp : p.Reads ls a ms)
    (hy : yes.Reads ls b ns) (no : Rule β) : (ifAhead p yes no).Reads ls b ns :=
  hp.ahead.bind hy

theorem Fails.ifAhead {p : Rule α} {no : Rule β} (hp : p.Fails ls) (yes : Rule β)
    (hn : no.Reads ls b ms) : (ifAhead p yes no).Reads ls b ms :=
  hp.ahead.bind hn

theorem Fails.firstOf {p : Rule α} {rules : List (Rule α)} (hp : p.Fails ls)
    (h : (firstOf rules).Reads ls a ms) : (firstOf (p :: rules)).Reads ls a ms := hp.orElse h

theorem fails_firstOf {rules : List (Rule α)} (h : ∀ p ∈ rules, p.Fails ls) :
    (firstOf rules).Fails ls :=
  firstOf_induction (fails_never ls) (fun _ _ => .orElse_fails) h

theorem reads_firstOf {p : Rule α} {before : List (Rule α)} (hb : ∀ q ∈ before, q.Fails ls)
    (hp : p.Reads ls a ms) (after : List (Rule α)) :
    (firstOf (before ++ p :: after)).Reads ls a ms := by
  induction before with
  | nil => exact hp.orElse _
  | cons q before ih =>
    exact (hb q (List.mem_cons_self ..)).orElse (ih fun r hr => hb r (List.mem_cons_of_mem _ hr))

-- ---------------------------------------------------------------------------
-- Repetition
-- ---------------------------------------------------------------------------

theorem Reads.loop_again {p : σ → Rule (Round σ α)} {hp : ∀ x, (p x).Advances}
    (h : (p x).Reads ls (.again y) ms) (hr : (loop p hp y).Reads ms a ns) :
    (loop p hp x).Reads ls a ns := by
  intro s hs
  obtain ⟨middle, hread, hm⟩ := h hs
  obtain ⟨rest, hread', hn⟩ := hr hm
  exact ⟨rest, by rw [read_loop, hread]; exact hread', hn⟩

theorem Reads.loop_finish {p : σ → Rule (Round σ α)} {hp : ∀ x, (p x).Advances}
    (h : (p x).Reads ls (.finish a) ms) : (loop p hp x).Reads ls a ms := by
  intro s hs
  obtain ⟨rest, hread, hm⟩ := h hs
  exact ⟨rest, by rw [read_loop, hread], hm⟩

theorem Reads.iterate {p : σ → Rule σ} {hp : ∀ x, (p x).Consumes} (h : (p x).Reads ls y ms)
    (hr : (iterate p hp y).Reads ms z ns) : (iterate p hp x).Reads ls z ns := by
  intro s hs
  obtain ⟨middle, hread, hm⟩ := h hs
  obtain ⟨rest, hread', hn⟩ := hr hm
  exact ⟨rest, by rw [read_iterate, hread]; exact hread', hn⟩

theorem Fails.iterate {p : σ → Rule σ} {hp : ∀ x, (p x).Consumes} (h : (p x).Fails ls) :
    (iterate p hp x).Reads ls x ls :=
  fun s hs => ⟨s, by rw [read_iterate, h hs], hs⟩

end Rule

/-- A list with at least one element. -/
structure OneOrMore (α : Type) where
  first : α
  more : List α
  deriving DecidableEq, Repr

/-- The lexemes of elements, with a symbol before each. -/
def continued (mark : Symbol) (lexemes : α → List Lexeme) (xs : List α) : List Lexeme :=
  xs.flatMap fun x => .symbol mark :: lexemes x

theorem continued_cons_append (mark : Symbol) (lexemes : α → List Lexeme) (x : α) (xs : List α)
    (ls : List Lexeme) :
    continued mark lexemes (x :: xs) ++ ls =
      .symbol mark :: (lexemes x ++ (continued mark lexemes xs ++ ls)) := by
  simp [continued]

namespace OneOrMore

def toList (xs : OneOrMore α) : List α := xs.first :: xs.more

/-- The lexemes of the elements, with a symbol between. -/
def joined (xs : OneOrMore α) (mark : Symbol) (lexemes : α → List Lexeme) : List Lexeme :=
  lexemes xs.first ++ continued mark lexemes xs.more

theorem joined_append (xs : OneOrMore α) (mark : Symbol) (lexemes : α → List Lexeme)
    (ls : List Lexeme) :
    xs.joined mark lexemes ++ ls = lexemes xs.first ++ (continued mark lexemes xs.more ++ ls) :=
  List.append_assoc ..

end OneOrMore

namespace Rule

/-- An element is followed by the symbol exactly if there are more elements. -/
theorem reads_element {item : Rule β} {lexemes : α → List Lexeme} {value : α → β}
    (hitem : ∀ x ms, item.Reads (lexemes x ++ .symbol mark :: ms) (value x) (.symbol mark :: ms))
    (hlast : ∀ x, item.Reads (lexemes x ++ ls) (value x) ls) (x : α) (more : List α) :
    item.Reads (lexemes x ++ (continued mark lexemes more ++ ls)) (value x)
      (continued mark lexemes more ++ ls) := by
  cases more with
  | nil => exact hlast x
  | cons y more =>
    rw [continued_cons_append]
    exact hitem x _

/-- Each element is read where the separator or what is behind the last element follows it. -/
theorem reads_separated {item : Rule β} {separator : Rule Unit} {hs : separator.Consumes}
    {lexemes : α → List Lexeme} {value : α → β} (xs : OneOrMore α)
    (hitem : ∀ x ms, item.Reads (lexemes x ++ .symbol mark :: ms) (value x) (.symbol mark :: ms))
    (hlast : ∀ x, item.Reads (lexemes x ++ ls) (value x) ls)
    (hsep : ∀ ms, separator.Reads (.symbol mark :: ms) () ms) (hend : separator.Fails ls) :
    (separated item separator hs).Reads (xs.joined mark lexemes ++ ls) (xs.toList.map value)
      ls := by
  have hread := reads_element hitem hlast
  have hloop (done : List β) (more : List α) :
      (loop (fun items => ifPresent separator ((fun b => .again (items ++ [b])) <$> item)
        (pure (.finish items))) (fun _ => advances_ifPresent hs _ _) done).Reads
        (continued mark lexemes more ++ ls) (done ++ more.map value) ls := by
    induction more generalizing done with
    | nil =>
      refine Reads.loop_finish ?_
      rw [List.map_nil, List.append_nil]
      exact hend.ifPresent _ (reads_pure _ _)
    | cons y more ih =>
      have hstep := (hsep _).ifPresent
        ((hread y more).map fun b => (.again (done ++ [b]) : Round (List β) (List β)))
        (pure (.finish done))
      rw [continued_cons_append, List.map_cons, List.append_cons done]
      exact Reads.loop_again hstep (ih _)
  rw [OneOrMore.joined_append]
  exact (hread xs.first xs.more).bind (hloop [value xs.first] xs.more)

end Rule

end TableSchema
