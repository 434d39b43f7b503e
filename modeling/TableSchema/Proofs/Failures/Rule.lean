import TableSchema.Proofs.Checked.Statement

/-!
# What a rule misses

A rule that gives no value names what is missing (`Explains`), and what a rule names is missing at a
token, never inside white space or before a comment (`AtTokens`). How the rules are put together
carries the first from parts to the whole; the second holds of every program.
-/

namespace TableSchema

open Scan

namespace Rule

/-- Whenever the rule gives no value it names something that is missing. -/
def Explains (p : Rule α) : Prop := ∀ ⦃s⦄, p.read s = none → ∃ m, m ∈ (p.run s).misses

/-- Whatever the rule misses it misses where no trivia is left to skip. -/
def AtTokens (p : Rule α) : Prop := ∀ ⦃s m⦄, m ∈ (p.run s).misses → skipTrivia m.rest = m.rest

-- ---------------------------------------------------------------------------
-- What a combinator misses
-- ---------------------------------------------------------------------------

theorem mem_misses_bind {p : Rule α} {f : α → Rule β} {m : Miss} :
    m ∈ ((p >>= f).run s).misses ↔
      m ∈ (p.run s).misses ∨
        ∃ a rest, p.read s = some (a, rest) ∧ m ∈ ((f a).run rest).misses := by
  rw [run_bind, bindRun, read]
  rcases p.run s with ⟨_ | ⟨a, rest⟩, misses⟩ <;> simp

theorem mem_misses_orElse {p q : Rule α} {m : Miss} :
    m ∈ ((p <|> q).run s).misses ↔
      m ∈ (p.run s).misses ∨ p.read s = none ∧ m ∈ (q.run s).misses := by
  rw [run_orElse, orElseRun, read]
  rcases p.run s with ⟨_ | ⟨a, rest⟩, misses⟩ <;> simp

theorem mem_misses_loop {p : σ → Rule (Round σ β)} {hp : ∀ x, (p x).Advances} {x : σ} {m : Miss} :
    m ∈ ((loop p hp x).run s).misses ↔
      m ∈ ((p x).run s).misses ∨
        ∃ y rest, (p x).read s = some (.again y, rest) ∧ m ∈ ((loop p hp y).run rest).misses := by
  rw [run_loop, read]
  rcases (p x).run s with ⟨_ | ⟨_ | _, rest⟩, misses⟩ <;> simp

-- ---------------------------------------------------------------------------
-- Rules that name what is missing
-- ---------------------------------------------------------------------------

theorem Total.explains {p : Rule α} (h : p.Total) : p.Explains := by
  intro s hr
  have hs := h s
  simp [hr] at hs

theorem total_pure (a : α) : (pure a : Rule α).Total := fun _ => rfl

theorem total_present (p : Rule α) : p.present.Total := by
  intro s
  simp [read_present]

theorem total_ahead (p : Rule α) : p.ahead.Total := fun _ => rfl

theorem total_option (p : Rule α) : p.option.Total := by
  intro s
  simp [read_option]

theorem total_bind {p : Rule α} {f : α → Rule β} (hp : p.Total) (hf : ∀ a, (f a).Total) :
    (p >>= f).Total := by
  intro s
  obtain ⟨⟨a, middle⟩, ha⟩ := Option.isSome_iff_exists.mp (hp s)
  rw [read_bind, ha]
  exact hf a middle

theorem total_ite {p q : Rule α} (c : Prop) [Decidable c] (hp : p.Total) (hq : q.Total) :
    (if c then p else q).Total := by
  split
  · exact hp
  · exact hq

theorem explains_miss (expected : Expectation) : (miss expected : Rule α).Explains :=
  fun _ _ => ⟨_, List.mem_cons_self ..⟩

theorem Explains.bind {p : Rule α} {f : α → Rule β} (hp : p.Explains)
    (hf : ∀ a, (f a).Explains) : (p >>= f).Explains := by
  intro s hr
  rw [read_bind] at hr
  cases ha : p.read s with
  | none =>
    obtain ⟨m, hm⟩ := hp ha
    exact ⟨m, mem_misses_bind.mpr (.inl hm)⟩
  | some found =>
    obtain ⟨a, rest⟩ := found
    rw [ha] at hr
    obtain ⟨m, hm⟩ := hf a hr
    exact ⟨m, mem_misses_bind.mpr (.inr ⟨a, rest, ha, hm⟩)⟩

/-- The last alternative speaks for all. -/
theorem Explains.orElse {p q : Rule α} (hq : q.Explains) : (p <|> q).Explains := by
  intro s hr
  rw [read_orElse, Option.or_eq_none_iff] at hr
  obtain ⟨m, hm⟩ := hq hr.2
  exact ⟨m, mem_misses_orElse.mpr (.inr ⟨hr.1, hm⟩)⟩

theorem explains_orMiss (p : Rule α) (expected : Expectation) : (p.orMiss expected).Explains :=
  (explains_miss expected).orElse

theorem Explains.map {p : Rule α} (f : α → β) (hp : p.Explains) : (f <$> p).Explains :=
  hp.bind fun a => (total_pure (f a)).explains

theorem Explains.ifPresent {yes no : Rule β} (p : Rule α) (hy : yes.Explains) (hn : no.Explains) :
    (ifPresent p yes no).Explains := by
  refine (total_present p).explains.bind fun found => ?_
  cases found
  · exact hn
  · exact hy

theorem Explains.ifAhead {yes no : Rule β} (p : Rule α) (hy : yes.Explains) (hn : no.Explains) :
    (ifAhead p yes no).Explains := by
  refine (total_ahead p).explains.bind fun found => ?_
  cases found
  · exact hn
  · exact hy

/-- By induction on what is left: a round that asks for another has read something. -/
theorem explains_loop {p : σ → Rule (Round σ β)} {hp : ∀ x, (p x).Advances}
    (h : ∀ x, (p x).Explains) (x : σ) : (loop p hp x).Explains := by
  intro s hr
  induction hn : s.length using Nat.strongRecOn generalizing x s with
  | ind n ih =>
    rw [read_loop] at hr
    split at hr
    next hround =>
      obtain ⟨m, hm⟩ := h x hround
      exact ⟨m, mem_misses_loop.mpr (.inl hm)⟩
    next => cases hr
    next y rest hround =>
      obtain ⟨m, hm⟩ := ih _ (hn ▸ hp x s y rest hround) y hr rfl
      exact ⟨m, mem_misses_loop.mpr (.inr ⟨y, rest, hround, hm⟩)⟩

theorem Explains.separated {item : Rule α} {separator : Rule Unit}
    {consumes : separator.Consumes} (h : item.Explains) :
    (separated item separator consumes).Explains :=
  h.bind fun first => explains_loop
    (fun items => .ifPresent separator (h.map _) (total_pure (Round.finish items)).explains) [first]

-- ---------------------------------------------------------------------------
-- Places of misses
-- ---------------------------------------------------------------------------

theorem atTokens_loop {p : σ → Rule (Round σ β)} {hp : ∀ x, (p x).Advances}
    (h : ∀ x, (p x).AtTokens) (x : σ) : (loop p hp x).AtTokens := by
  intro s m hm
  induction hn : s.length using Nat.strongRecOn generalizing x s with
  | ind n ih =>
    rcases mem_misses_loop.mp hm with hm | ⟨y, rest, hround, hm⟩
    · exact h x hm
    · exact ih _ (hn ▸ hp x s y rest hround) y hm rfl

theorem atTokens_literal (quote : Char) : (literal quote).AtTokens := by
  intro s m hm
  simp only [literal] at hm
  split at hm
  next => simp at hm
  next c rest hs =>
    split at hm
    next =>
      split at hm
      next => simp at hm
      next =>
        obtain rfl := List.mem_singleton.mp hm
        rw [← hs, skipTrivia_skipTrivia]
    next => simp at hm

/-- Every rule of the grammar looks for what it requires at the next token. -/
theorem Program.atTokens {p : Rule α} (P : Program p) : p.AtTokens := by
  induction P with
  | miss expected =>
    intro s m hm
    obtain rfl := List.mem_singleton.mp hm
    exact skipTrivia_skipTrivia s
  | literal quote _ => exact atTokens_literal quote
  | pure | never | keyword | symbol | run1 | quotedName | bare | unclaimed =>
    intro s m hm
    exact absurd hm (List.not_mem_nil)
  | bind _ _ hp hf =>
    intro s m hm
    rcases mem_misses_bind.mp hm with hm | ⟨a, rest, -, hm⟩
    · exact hp hm
    · exact hf a hm
  | orElse _ _ hp hq =>
    intro s m hm
    rcases mem_misses_orElse.mp hm with hm | ⟨-, hm⟩
    · exact hp hm
    · exact hq hm
  | ahead _ hp | source _ hp => exact fun s m hm => hp hm
  | loop x _ h => exact atTokens_loop h x

end Rule

end TableSchema
