import TableSchema.Statement

/-!
# Laws of rules

What a rule gives, apart from what it misses, and how each combinator gives it. Later proofs rewrite
with these laws and do not open the combinators.
-/

namespace TableSchema.Rule

/-- What a rule gives from the start of a text: a value with the rest, or nothing. -/
def read (p : Rule α) (s : List Char) : Option (α × List Char) := (p.run s).result

/-- The rule never refuses. -/
def Total (p : Rule α) : Prop := ∀ s, (p.read s).isSome

theorem read_suffix {p : Rule α} (h : p.read s = some (a, rest)) : rest <:+ s :=
  p.suffix_of_result h

theorem read_bind (p : Rule α) (f : α → Rule β) (s : List Char) :
    (p >>= f).read s = (p.read s).bind fun x => (f x.1).read x.2 := by
  rw [read, run_bind, bindRun, read]
  rcases p.run s with ⟨_ | ⟨a, rest⟩, misses⟩ <;> rfl

theorem read_orElse (p q : Rule α) (s : List Char) :
    (p <|> q).read s = (p.read s).or (q.read s) := by
  rw [read, run_orElse, orElseRun, read]
  rcases p.run s with ⟨_ | ⟨a, rest⟩, misses⟩ <;> rfl

theorem read_map (f : α → β) (p : Rule α) (s : List Char) :
    (f <$> p).read s = (p.read s).map fun x => (f x.1, x.2) := by
  show (p >>= fun a => pure (f a)).read s = _
  rw [read_bind]
  cases p.read s <;> rfl

theorem read_seqRight (p : Rule α) (q : Rule β) (s : List Char) :
    (p *> q).read s = (p.read s).bind fun x => q.read x.2 := read_bind p (fun _ => q) s

theorem read_seqLeft (p : Rule α) (q : Rule β) (s : List Char) :
    (p <* q).read s = (p.read s).bind fun x => (q.read x.2).map fun y => (x.1, y.2) := by
  show (p >>= fun a => q >>= fun _ => pure a).read s = _
  rw [read_bind]
  refine congrArg _ (funext fun x => ?_)
  rw [read_bind]
  cases q.read x.2 <;> rfl

theorem read_present (p : Rule α) (s : List Char) :
    p.present.read s = some (match p.read s with
      | some (_, rest) => (true, rest)
      | none => (false, s)) := by
  rw [present, read_orElse, read_seqRight]
  rcases p.read s with _ | ⟨a, rest⟩ <;> rfl

theorem read_option (p : Rule α) (s : List Char) :
    p.option.read s = some (match p.read s with
      | some (a, rest) => (some a, rest)
      | none => (none, s)) := by
  rw [option, read_orElse, read_map]
  rcases p.read s with _ | ⟨a, rest⟩ <;> rfl

theorem read_ahead (p : Rule α) (s : List Char) :
    p.ahead.read s = some ((p.read s).isSome, s) := rfl

theorem read_ifPresent (p : Rule α) (yes no : Rule β) (s : List Char) :
    (ifPresent p yes no).read s =
      match p.read s with
      | some (_, rest) => yes.read rest
      | none => no.read s := by
  rw [ifPresent, read_bind, read_present]
  rcases p.read s with _ | ⟨a, rest⟩ <;> rfl

theorem read_ifAhead (p : Rule α) (yes no : Rule β) (s : List Char) :
    (ifAhead p yes no).read s = if (p.read s).isSome then yes.read s else no.read s := by
  rw [ifAhead, read_bind, read_ahead, Option.bind_some]
  cases (p.read s).isSome <;> rfl

theorem read_source (p : Rule α) (s : List Char) :
    p.source.read s = (p.read (Scan.skipTrivia s)).map fun x =>
      ((Scan.skipTrivia s).take ((Scan.skipTrivia s).length - x.2.length), x.2) := rfl

theorem read_firstOf_cons (p : Rule α) (rules : List (Rule α)) (s : List Char) :
    (firstOf (p :: rules)).read s = (p.read s).or ((firstOf rules).read s) := read_orElse ..

theorem read_firstOf_eq_none_iff {rules : List (Rule α)} :
    (firstOf rules).read s = none ↔ ∀ p ∈ rules, p.read s = none := by
  induction rules with
  | nil => exact iff_of_true rfl nofun
  | cons p rules ih =>
    rw [read_firstOf_cons, Option.or_eq_none_iff, ih, List.forall_mem_cons]

/-- What a choice passes on from its alternatives holds of the first of several rules. -/
theorem firstOf_induction {motive : Rule α → Prop} (never : motive never)
    (orElse : ∀ ⦃p q⦄, motive p → motive q → motive (p <|> q)) {rules : List (Rule α)}
    (h : ∀ p ∈ rules, motive p) : motive (firstOf rules) := by
  induction rules with
  | nil => exact never
  | cons p rules ih =>
    rw [List.forall_mem_cons] at h
    exact orElse h.1 (ih h.2)

-- ---------------------------------------------------------------------------
-- Repetition
-- ---------------------------------------------------------------------------

theorem run_loop {p : σ → Rule (Round σ α)} {hp : ∀ x, (p x).Advances} (x : σ) (s : List Char) :
    (loop p hp x).run s =
      match (p x).run s with
      | ⟨none, misses⟩ => ⟨none, misses⟩
      | ⟨some (.finish b, rest), misses⟩ => ⟨some (b, rest), misses⟩
      | ⟨some (.again y, rest), misses⟩ =>
        ⟨((loop p hp y).run rest).result, misses ++ ((loop p hp y).run rest).misses⟩ := by
  show loopRun p hp x s = _
  rw [loopRun]
  split
  next h => simp only [h]
  next h => simp only [h]
  next h => simp only [h]; rfl

theorem read_loop {p : σ → Rule (Round σ α)} {hp : ∀ x, (p x).Advances} (x : σ) (s : List Char) :
    (loop p hp x).read s =
      match (p x).read s with
      | none => none
      | some (.finish b, rest) => some (b, rest)
      | some (.again y, rest) => (loop p hp y).read rest := by
  rw [read, run_loop, read]
  rcases (p x).run s with ⟨_ | ⟨_ | _, rest⟩, misses⟩ <;> rfl

theorem read_iterate {p : σ → Rule σ} {hp : ∀ x, (p x).Consumes} (x : σ) (s : List Char) :
    (iterate p hp x).read s =
      match (p x).read s with
      | none => some (x, s)
      | some (y, rest) => (iterate p hp y).read rest := by
  rw [iterate, read_loop, read_orElse, read_map]
  rcases (p x).read s with _ | ⟨y, rest⟩ <;> rfl

/-- A repetition of a rule that may fail is never the one to fail. -/
theorem isSome_read_iterate {p : σ → Rule σ} {hp : ∀ x, (p x).Consumes} (x : σ) (s : List Char) :
    ((iterate p hp x).read s).isSome := by
  induction hn : s.length using Nat.strongRecOn generalizing x s with
  | ind n ih =>
    rw [read_iterate]
    rcases hy : (p x).read s with _ | ⟨y, rest⟩
    · rfl
    · exact ih _ (hn ▸ hp x s y rest hy) y rest rfl

theorem total_iterate {p : σ → Rule σ} {hp : ∀ x, (p x).Consumes} (x : σ) :
    (iterate p hp x).Total := isSome_read_iterate x

theorem exists_read_iterate {p : σ → Rule σ} (hp : ∀ x, (p x).Consumes) (x : σ) (s : List Char) :
    ∃ y rest, (iterate p hp x).read s = some (y, rest) := by
  have h : ((iterate p hp x).read s).isSome := isSome_read_iterate x s
  obtain ⟨⟨y, rest⟩, h⟩ := Option.isSome_iff_exists.mp h
  exact ⟨y, rest, h⟩

/-- What every step keeps a repetition keeps. -/
theorem read_iterate_keeps {p : σ → Rule σ} {hp : ∀ x, (p x).Consumes} (Keeps : σ → Prop)
    (step : ∀ {x y s rest}, (p x).read s = some (y, rest) → Keeps x → Keeps y)
    (h : (iterate p hp x).read s = some (y, rest)) (hx : Keeps x) : Keeps y := by
  induction hn : s.length using Nat.strongRecOn generalizing x s with
  | ind n ih =>
    rw [read_iterate] at h
    cases hz : (p x).read s with
    | none => rw [hz] at h; cases h; exact hx
    | some found => rw [hz] at h; exact ih _ (hn ▸ hp x s _ _ hz) h (step hz hx) rfl

end TableSchema.Rule
