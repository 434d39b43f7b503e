import TableSchema.Proofs.Checked.Token
import TableSchema.Proofs.Program

/-!
# Checked runs

A program of the grammar run on a cursor. Alternatives go back to where the one before them began,
and each round of a repetition has to move the cursor forward. By induction over programs no run
faults, and a run gives and misses what its rule does.
-/

namespace TableSchema.Checked

open Rule Scan

namespace Step

variable {text : List Char}

def miss (text : List Char) (expected : Expectation) : Step α := fun c => do
  return (none, ← c.fail text expected)

def bind (first : Step α) (next : α → Step β) : Step β := fun c => do
  match ← first c with
  | (some a, c) => next a c
  | (none, c) => return (none, c)

def orElse (text : List Char) (first second : Step α) : Step α := fun c => do
  match ← first c with
  | (some a, c) => return (some a, c)
  | (none, c') => second (← c'.moveTo text c.pos)

def ahead (text : List Char) (step : Step α) : Step Bool := fun c => do
  let (found, c') ← step c
  return (some found.isSome, ← c'.moveTo text c.pos)

def source (text : List Char) (step : Step α) : Step (List Char) := fun c => do
  let c ← c.skipTrivia text
  match ← step c with
  | (some _, c') => return (some (← slice text c.pos c'.pos), c')
  | (none, c') => return (none, c')

/-- One round of a repetition, which ends where a round gives no value. -/
def round (step : σ → Step (Round σ β)) (x : σ × Cursor) :
    Except Fault (Round (σ × Cursor) (Option β × Cursor)) := do
  match ← step x.1 x.2 with
  | (some (.again y), c) => return .again (y, c)
  | (some (.finish b), c) => return .finish (some b, c)
  | (none, c) => return .finish (none, c)

def loop (text : List Char) (step : σ → Step (Round σ β)) (x : σ) : Step β := fun c =>
  Checked.loop (·.2.pos) (bytes text) (round step) (x, c)

end Step

/-- Runs a program from the place of a cursor. -/
def run (text : List Char) : {α : Type} → {p : Rule α} → Program p → Step α
  | _, _, .pure a => fun c => .ok (some a, c)
  | _, _, .never => fun c => .ok (none, c)
  | _, _, .miss expected => Step.miss text expected
  | _, _, .keyword w _ => Step.eat text (Step.keywordLength w.toList)
  | _, _, .symbol mark _ => Step.eat text (Step.symbolLength mark.toList)
  | _, _, .run1 accepts _ => Step.run1 text accepts
  | _, _, .quotedName => Step.quotedName text
  | _, _, .literal quote _ => Step.literal text quote
  | _, _, .bare stopAtCast => Step.bare text stopAtCast
  | _, _, .unclaimed => Step.unclaimed text
  | _, _, .bind P F => Step.bind (run text P) fun a => run text (F a)
  | _, _, .orElse P Q => Step.orElse text (run text P) (run text Q)
  | _, _, .ahead P => Step.ahead text (run text P)
  | _, _, .source P => Step.source text (run text P)
  | _, _, .loop x P => Step.loop text (fun y => run text (P y)) x

section

variable {text : List Char}

theorem sound_pure (a : α) : Sound text (pure a) fun c => .ok (some a, c) :=
  .of_silent (fun _ => rfl) (fun _ _ _ _ _ hf hr => by cases hr; exact ⟨_, rfl, hf⟩)
    fun _ _ _ _ hr => by cases hr

theorem sound_never : Sound text (never : Rule α) fun c => .ok (none, c) :=
  .of_silent (fun _ => rfl) (fun _ _ _ _ _ _ hr => by cases hr) fun _ _ _ hf _ =>
    ⟨_, _, rfl, hf⟩

theorem sound_miss (expected : Expectation) :
    Sound text (miss expected : Rule α) (Step.miss text expected) := by
  intro c s misses hf
  obtain ⟨c', hc, hf'⟩ := hf.fail_eq expected
  exact ⟨c', _, by rw [Step.miss, hc]; rfl, hf', fun _ _ he => by cases he⟩

theorem Sound.bind {p : Rule α} {f : α → Rule β} {first : Step α} {next : α → Step β}
    (hp : Sound text p first) (hf : ∀ a, Sound text (f a) (next a)) :
    Sound text (p >>= f) (first.bind next) := by
  intro c s misses h
  obtain ⟨c1, r1, hc, h1, hrest⟩ := hp h
  rw [Step.bind, hc, ok_bind, read_bind, run_bind, bindRun]
  rw [Rule.read] at hrest ⊢
  rcases hrun : p.run s with ⟨_ | ⟨a, middle⟩, found⟩
  · rw [hrun] at h1
    exact ⟨c1, r1, rfl, h1, fun _ _ he => by cases he⟩
  · rw [hrun] at h1 hrest
    obtain rfl := hrest a middle rfl
    obtain ⟨c2, r2, hc2, h2, hrest2⟩ := hf a h1
    exact ⟨c2, r2, hc2, by rw [← List.append_assoc]; exact h2, hrest2⟩

theorem Sound.orElse {p q : Rule α} {first second : Step α} (hp : Sound text p first)
    (hq : Sound text q second) : Sound text (p <|> q) (first.orElse text second) := by
  intro c s misses h
  obtain ⟨c1, r1, hc, h1, hrest⟩ := hp h
  rw [Step.orElse, hc, ok_bind, read_orElse, run_orElse, orElseRun]
  rw [Rule.read] at hrest ⊢
  rcases hrun : p.run s with ⟨_ | ⟨a, rest⟩, found⟩
  · rw [hrun] at h1
    -- The second alternative begins where the first one did.
    obtain ⟨c2, hc2, -, h2⟩ := h1.moveTo_eq h.place
    obtain ⟨c3, r3, hc3, h3, hrest3⟩ := hq h2
    refine ⟨c3, r3, ?_, by rw [← List.append_assoc]; exact h3, hrest3⟩
    show (c1.moveTo text c.pos >>= second) = .ok ((q.read s).map Prod.fst, c3)
    rw [hc2, ok_bind, hc3]
  · rw [hrun] at h1 hrest
    exact ⟨c1, r1, rfl, h1, hrest⟩

theorem Sound.ahead {p : Rule α} {step : Step α} (hp : Sound text p step) :
    Sound text p.ahead (step.ahead text) := by
  intro c s misses h
  obtain ⟨c1, r1, hc, h1, -⟩ := hp h
  obtain ⟨c2, hc2, -, h2⟩ := h1.moveTo_eq h.place
  refine ⟨c2, s, ?_, h2, fun a rest he => by cases he; rfl⟩
  rw [Step.ahead, hc, ok_bind]
  dsimp only
  rw [hc2, read_ahead]
  cases p.read s <;> rfl

theorem Sound.source {p : Rule α} {step : Step α} (hp : Sound text p step) :
    Sound text p.source (step.source text) := by
  intro c s misses h
  obtain ⟨c1, hc1, h1⟩ := h.skipTrivia_eq
  obtain ⟨c2, r2, hc2, h2, hrest⟩ := hp h1
  have hmisses : (p.source.run s).misses = (p.run (skipTrivia s)).misses := rfl
  rw [Step.source, hc1, ok_bind, hc2, ok_bind, read_source, hmisses]
  cases hr : p.read (skipTrivia s) with
  | none => exact ⟨c2, r2, rfl, h2, fun _ _ he => by cases he⟩
  | some x =>
    obtain rfl := hrest x.1 x.2 hr
    have hslice := h1.place.slice_eq h2.place (read_suffix hr)
    refine ⟨c2, _, ?_, h2, fun a rest he => by cases he; rfl⟩
    show (slice text c1.pos c2.pos >>= fun t => pure (some t, c2)) = _
    rw [hslice]
    rfl

theorem Sound.loop {p : σ → Rule (Round σ β)} {hp : ∀ x, (p x).Advances}
    {step : σ → Step (Round σ β)} (h : ∀ x, Sound text (p x) (step x)) (x : σ) :
    Sound text (Rule.loop p hp x) (Step.loop text step x) := by
  intro c s misses hf
  induction hn : s.length using Nat.strongRecOn generalizing x c s misses with
  | ind n ih =>
    obtain ⟨c1, r1, hc, h1, hrest⟩ := h x hf
    rw [Rule.read] at hc hrest
    rw [Rule.read, run_loop]
    rcases hrun : (p x).run s with ⟨_ | ⟨_ | b, rest⟩, found⟩
    · rw [hrun] at hc h1
      refine ⟨c1, r1, loop_finish ?_, h1, fun _ _ he => by cases he⟩
      rw [Step.round, hc]
      rfl
    · rename_i y
      rw [hrun] at hc h1 hrest
      obtain rfl := hrest _ rest rfl
      have hshort : rest.length < s.length := hp x s y rest (by rw [hrun])
      have hpos := (At.lt_iff hf.place h1.place).mp hshort
      obtain ⟨c2, r2, hc2, h2, hrest2⟩ := ih rest.length (hn ▸ hshort) y h1 rfl
      refine ⟨c2, r2, ?_, by rw [← List.append_assoc]; exact h2, hrest2⟩
      refine Eq.trans (loop_again ?_ hpos h1.place.le_bytes) hc2
      rw [Step.round, hc]
      rfl
    · rw [hrun] at hc h1 hrest
      refine ⟨c1, r1, loop_finish ?_, h1, fun a rest' he => ?_⟩
      · rw [Step.round, hc]
        rfl
      · cases he
        exact hrest _ _ rfl

/-- No run of a program faults, and a run does what the rule does. -/
theorem sound_run (text : List Char) {p : Rule α} (P : Program p) :
    Sound text p (run text P) := by
  induction P with
  | pure a => exact sound_pure a
  | never => exact sound_never
  | miss expected => exact sound_miss expected
  | keyword w _ => exact sound_keyword w
  | symbol mark _ => exact sound_symbol mark
  | run1 accepts _ => exact sound_run1 accepts
  | quotedName => exact sound_quotedName
  | literal quote _ => exact sound_literal quote
  | bare stopAtCast => exact sound_bare stopAtCast
  | unclaimed => exact sound_unclaimed
  | bind _ _ hp hf => exact hp.bind hf
  | orElse _ _ hp hq => exact hp.orElse hq
  | ahead _ hp => exact hp.ahead
  | source _ hp => exact hp.source
  | loop x _ h => exact Sound.loop h x

end

end TableSchema.Checked
