import TableSchema.Proofs.Continuation.Scan
import TableSchema.Proofs.RuleLaws

/-!
# Rules on a text that goes on

A rule that has tried and left an alternative may find it in a longer text, when the added text
closes a literal that the first one left open. But then the first text is not closed at that place,
and nothing that is read from there leaves a closed rest. So three properties go together:
`Persists`, of what is read; `Refuses`, of what is not; `Keeps`, which passes closedness on between
the parts of a sequence. A rule that others fall back from needs the first two.
-/

namespace TableSchema.Rule

open Scan

/-- What is read with a closed rest is read from every longer text, and the text was closed. -/
def Persists (p : Rule α) : Prop :=
  ∀ ⦃s a rest⦄, Plain s → p.read s = some (a, rest) → Closed rest →
    Closed s ∧ ∀ x, p.read (s ++ x) = some (a, rest ++ x)

/-- What is not read from a closed text is not read from a longer one. -/
def Refuses (p : Rule α) : Prop :=
  ∀ ⦃s⦄, Plain s → Closed s → p.read s = none → ∀ x, p.read (s ++ x) = none

/-- The rest of a closed text is closed. -/
def Keeps (p : Rule α) : Prop :=
  ∀ ⦃s a rest⦄, Plain s → Closed s → p.read s = some (a, rest) → Closed rest

structure Settled (p : Rule α) : Prop where
  persists : p.Persists
  refuses : p.Refuses

/-- The rule reads a closed text without regard to what follows it. -/
structure Local (p : Rule α) : Prop extends p.Settled where
  keeps : p.Keeps

-- ---------------------------------------------------------------------------
-- Sequence and choice
-- ---------------------------------------------------------------------------

theorem local_pure (a : α) : (pure a : Rule α).Local where
  persists s b rest _ h hr := by cases h; exact ⟨hr, fun _ => rfl⟩
  refuses s _ _ h := by cases h
  keeps s b rest _ hs h := by cases h; exact hs

theorem local_never : (never : Rule α).Local where
  persists s b rest _ h _ := by cases h
  refuses s _ _ _ x := rfl
  keeps s b rest _ _ h := by cases h

theorem local_miss (expected : Expectation) : (miss expected : Rule α).Local where
  persists s b rest _ h _ := by cases h
  refuses s _ _ _ x := rfl
  keeps s b rest _ _ h := by cases h

theorem read_bind_eq_some {p : Rule α} {f : α → Rule β} :
    (p >>= f).read s = some (b, rest) ↔
      ∃ a middle, p.read s = some (a, middle) ∧ (f a).read middle = some (b, rest) := by
  simp [read_bind, Option.bind_eq_some_iff]

theorem read_orElse_eq_some {p q : Rule α} :
    (p <|> q).read s = some (a, rest) ↔
      p.read s = some (a, rest) ∨ p.read s = none ∧ q.read s = some (a, rest) := by
  rw [read_orElse, Option.or_eq_some_iff]

theorem Persists.bind {p : Rule α} {f : α → Rule β} (hp : p.Persists)
    (hf : ∀ a, (f a).Persists) : (p >>= f).Persists := by
  intro s b rest h hr hrest
  obtain ⟨a, middle, ha, hb⟩ := read_bind_eq_some.mp hr
  obtain ⟨hmiddle, hb⟩ := hf a (h.suffix (read_suffix ha)) hb hrest
  obtain ⟨hs, ha⟩ := hp h ha hmiddle
  exact ⟨hs, fun x => read_bind_eq_some.mpr ⟨a, middle ++ x, ha x, hb x⟩⟩

theorem Refuses.bind {p : Rule α} {f : α → Rule β} (hp : p.Local) (hf : ∀ a, (f a).Refuses) :
    (p >>= f).Refuses := by
  intro s h hs hr x
  rw [read_bind] at hr ⊢
  cases ha : p.read s with
  | none => rw [hp.refuses h hs ha]; rfl
  | some found =>
    obtain ⟨a, middle⟩ := found
    have hmiddle := hp.keeps h hs ha
    rw [ha] at hr
    rw [(hp.persists h ha hmiddle).2]
    exact hf a (h.suffix (read_suffix ha)) hmiddle hr x

theorem Local.bind_settled {p : Rule α} {f : α → Rule β} (hp : p.Local)
    (hf : ∀ a, (f a).Settled) : (p >>= f).Settled where
  persists := hp.persists.bind fun a => (hf a).persists
  refuses := .bind hp fun a => (hf a).refuses

theorem Keeps.bind {p : Rule α} {f : α → Rule β} (hp : p.Keeps) (hf : ∀ a, (f a).Keeps) :
    (p >>= f).Keeps := by
  intro s b rest h hs hr
  obtain ⟨a, middle, ha, hb⟩ := read_bind_eq_some.mp hr
  exact hf a (h.suffix (read_suffix ha)) (hp h hs ha) hb

theorem Local.bind {p : Rule α} {f : α → Rule β} (hp : p.Local) (hf : ∀ a, (f a).Local) :
    (p >>= f).Local where
  persists := hp.persists.bind fun a => (hf a).persists
  refuses := .bind hp fun a => (hf a).refuses
  keeps := hp.keeps.bind fun a => (hf a).keeps

/-- A rule that never refuses has nothing to stay refused. -/
theorem Persists.settled {p : Rule α} (hp : p.Persists) (ht : p.Total) : p.Settled where
  persists := hp
  refuses s _ _ hr := by
    have hs := ht s
    rw [hr] at hs
    cases hs

/-- Where the second part never refuses, the first need not keep texts closed. -/
theorem Refuses.bind_total {p : Rule α} {f : α → Rule β} (hp : p.Refuses)
    (hf : ∀ a, (f a).Total) : (p >>= f).Refuses := by
  intro s h hs hr x
  rw [read_bind] at hr ⊢
  cases ha : p.read s with
  | none => rw [hp h hs ha]; rfl
  | some found =>
    have hsome := hf found.1 found.2
    rw [ha, Option.bind_some] at hr
    rw [hr] at hsome
    cases hsome

theorem Persists.orElse {p q : Rule α} (hp : p.Persists) (hr : p.Refuses) (hq : q.Persists) :
    (p <|> q).Persists := by
  intro s a rest h ha hrest
  rcases read_orElse_eq_some.mp ha with ha | ⟨hn, ha⟩
  · obtain ⟨hs, ha⟩ := hp h ha hrest
    exact ⟨hs, fun x => read_orElse_eq_some.mpr (.inl (ha x))⟩
  · obtain ⟨hs, ha⟩ := hq h ha hrest
    exact ⟨hs, fun x => read_orElse_eq_some.mpr (.inr ⟨hr h hs hn x, ha x⟩)⟩

theorem Refuses.orElse {p q : Rule α} (hp : p.Refuses) (hq : q.Refuses) :
    (p <|> q).Refuses := by
  intro s h hs hr x
  rw [read_orElse, Option.or_eq_none_iff] at hr ⊢
  exact ⟨hp h hs hr.1 x, hq h hs hr.2 x⟩

theorem Keeps.orElse {p q : Rule α} (hp : p.Keeps) (hq : q.Keeps) : (p <|> q).Keeps := by
  intro s a rest h hs ha
  rcases read_orElse_eq_some.mp ha with ha | ⟨-, ha⟩
  · exact hp h hs ha
  · exact hq h hs ha

theorem Settled.orElse {p q : Rule α} (hp : p.Settled) (hq : q.Settled) : (p <|> q).Settled where
  persists := hp.persists.orElse hp.refuses hq.persists
  refuses := hp.refuses.orElse hq.refuses

theorem Local.orElse {p q : Rule α} (hp : p.Local) (hq : q.Local) : (p <|> q).Local where
  persists := hp.persists.orElse hp.refuses hq.persists
  refuses := hp.refuses.orElse hq.refuses
  keeps := hp.keeps.orElse hq.keeps

theorem Persists.map {p : Rule α} (f : α → β) (hp : p.Persists) : (f <$> p).Persists :=
  hp.bind fun a => (local_pure (f a)).persists

theorem Settled.map {p : Rule α} (f : α → β) (hp : p.Settled) : (f <$> p).Settled where
  persists := hp.persists.map f
  refuses := hp.refuses.bind_total fun _ _ => rfl

theorem Local.map {p : Rule α} (f : α → β) (hp : p.Local) : (f <$> p).Local :=
  hp.bind fun a => local_pure (f a)

theorem Local.seqRight {p : Rule α} {q : Rule β} (hp : p.Local) (hq : q.Local) :
    (p *> q).Local := hp.bind fun _ => hq

theorem Local.seqLeft {p : Rule α} {q : Rule β} (hp : p.Local) (hq : q.Local) :
    (p <* q).Local := hp.bind fun a => hq.bind fun _ => local_pure a

theorem local_ite {p q : Rule α} (c : Prop) [Decidable c] (hp : p.Local) (hq : q.Local) :
    (if c then p else q).Local := by
  split
  · exact hp
  · exact hq

-- ---------------------------------------------------------------------------
-- Options and lookahead
-- ---------------------------------------------------------------------------

theorem Local.orMiss {p : Rule α} (hp : p.Local) (expected : Expectation) :
    (p.orMiss expected).Local := hp.orElse (local_miss expected)

theorem Local.option {p : Rule α} (hp : p.Local) : p.option.Local :=
  (hp.map some).orElse (local_pure none)

theorem Local.present {p : Rule α} (hp : p.Local) : p.present.Local :=
  (hp.seqRight (local_pure true)).orElse (local_pure false)

theorem Local.ahead {p : Rule α} (hp : p.Local) : p.ahead.Local where
  persists s found rest h hr hs := by
    rw [read_ahead] at hr
    cases hr
    refine ⟨hs, fun x => ?_⟩
    have hsome : (p.read (s ++ x)).isSome = (p.read s).isSome := by
      cases ha : p.read s with
      | none => rw [hp.refuses h hs ha]
      | some found => rw [(hp.persists h ha (hp.keeps h hs ha)).2 x]; rfl
    rw [read_ahead, hsome]
  refuses s _ _ hr := by cases hr
  keeps s found rest _ hs hr := by cases hr; exact hs

theorem Local.ifPresent {p : Rule α} {yes no : Rule β} (hp : p.Local) (hy : yes.Local)
    (hn : no.Local) : (ifPresent p yes no).Local :=
  hp.present.bind fun _ => local_ite _ hy hn

theorem Persists.ifPresent {p : Rule α} {yes no : Rule β} (hp : p.Local) (hy : yes.Persists)
    (hn : no.Persists) : (ifPresent p yes no).Persists := by
  refine hp.present.persists.bind fun found => ?_
  cases found
  · exact hn
  · exact hy

theorem Local.ifAhead {p : Rule α} {yes no : Rule β} (hp : p.Local) (hy : yes.Local)
    (hn : no.Local) : (ifAhead p yes no).Local :=
  hp.ahead.bind fun _ => local_ite _ hy hn

theorem Persists.ifAhead {p : Rule α} {yes no : Rule β} (hp : p.Local) (hy : yes.Persists)
    (hn : no.Persists) : (ifAhead p yes no).Persists := by
  refine hp.ahead.persists.bind fun found => ?_
  cases found
  · exact hn
  · exact hy

theorem settled_firstOf {rules : List (Rule α)} (h : ∀ p ∈ rules, p.Settled) :
    (firstOf rules).Settled :=
  firstOf_induction local_never.toSettled (fun _ _ => .orElse) h

theorem local_firstOf {rules : List (Rule α)} (h : ∀ p ∈ rules, p.Local) :
    (firstOf rules).Local :=
  firstOf_induction local_never (fun _ _ => .orElse) h

theorem Persists.source {p : Rule α} (hp : p.Persists) : p.source.Persists := by
  intro s text rest h hr hrest
  rw [read_source] at hr
  obtain ⟨⟨a, rest⟩, ha, heq⟩ := Option.map_eq_some_iff.mp hr
  cases heq
  obtain ⟨hstart, ha⟩ := hp (h.suffix (skipTrivia_suffix s)) ha hrest
  have hs := (closed_skipTrivia_iff h).mp hstart
  refine ⟨hs, fun x => ?_⟩
  have hle := (read_suffix ‹_›).length_le
  rw [read_source, skipTrivia_append h hs, ha x]
  simp only [Option.map_some, List.length_append, Nat.add_sub_add_right]
  rw [List.take_append_of_le_length (Nat.sub_le ..)]

-- ---------------------------------------------------------------------------
-- Repetition
-- ---------------------------------------------------------------------------

theorem persists_loop {p : σ → Rule (Round σ α)} {hp : ∀ x, (p x).Advances}
    (h : ∀ x, (p x).Persists) (x : σ) : (loop p hp x).Persists := by
  intro s a rest hs hr hrest
  -- Each round leaves less of the text.
  induction hn : s.length using Nat.strongRecOn generalizing x s with
  | ind n ih =>
    rw [read_loop] at hr
    split at hr
    next => cases hr
    next b middle hround =>
      cases hr
      obtain ⟨hclosed, hround⟩ := h x hs hround hrest
      exact ⟨hclosed, fun y => by rw [read_loop, hround y]⟩
    next x' middle hround =>
      have hlt : middle.length < n := hn ▸ hp x s x' middle hround
      obtain ⟨hmiddle, hr⟩ := ih _ hlt x' (hs.suffix (read_suffix hround)) hr rfl
      obtain ⟨hclosed, hround⟩ := h x hs hround hmiddle
      exact ⟨hclosed, fun y => by rw [read_loop, hround y]; exact hr y⟩

theorem keeps_loop {p : σ → Rule (Round σ α)} {hp : ∀ x, (p x).Advances}
    (h : ∀ x, (p x).Keeps) (x : σ) : (loop p hp x).Keeps := by
  intro s a rest hs hclosed hr
  induction hn : s.length using Nat.strongRecOn generalizing x s with
  | ind n ih =>
    rw [read_loop] at hr
    split at hr
    next => cases hr
    next b middle hround =>
      cases hr
      exact h x hs hclosed hround
    next x' middle hround =>
      have hlt : middle.length < n := hn ▸ hp x s x' middle hround
      exact ih _ hlt x' (hs.suffix (read_suffix hround)) (h x hs hclosed hround) hr rfl

theorem refuses_loop {p : σ → Rule (Round σ α)} {hp : ∀ x, (p x).Advances}
    (h : ∀ x, (p x).Local) (x : σ) : (loop p hp x).Refuses := by
  intro s hs hclosed hr y
  induction hn : s.length using Nat.strongRecOn generalizing x s with
  | ind n ih =>
    rw [read_loop] at hr ⊢
    split at hr
    next hround => rw [(h x).refuses hs hclosed hround]
    next => cases hr
    next x' middle hround =>
      have hlt : middle.length < n := hn ▸ hp x s x' middle hround
      have hmiddle := (h x).keeps hs hclosed hround
      rw [((h x).persists hs hround hmiddle).2]
      exact ih _ hlt x' (hs.suffix (read_suffix hround)) hmiddle hr rfl

theorem local_loop {p : σ → Rule (Round σ α)} {hp : ∀ x, (p x).Advances}
    (h : ∀ x, (p x).Local) (x : σ) : (loop p hp x).Local where
  persists := persists_loop (fun x => (h x).persists) x
  refuses := refuses_loop h x
  keeps := keeps_loop (fun x => (h x).keeps) x

theorem settled_iterate {p : σ → Rule σ} {hp : ∀ x, (p x).Consumes} (h : ∀ x, (p x).Settled)
    (x : σ) : (iterate p hp x).Settled := by
  have hpersists : (iterate p hp x).Persists := by
    refine persists_loop (fun x => ?_) x
    exact (((h x).map _).orElse (local_pure (Round.finish x)).toSettled).persists
  exact hpersists.settled (total_iterate x)

theorem local_iterate {p : σ → Rule σ} {hp : ∀ x, (p x).Consumes} (h : ∀ x, (p x).Local) (x : σ) :
    (iterate p hp x).Local := by
  refine local_loop (fun x => ?_) x
  exact ((h x).map _).orElse (local_pure (Round.finish x))

theorem Local.separated {item : Rule α} {separator : Rule Unit} {hs : separator.Consumes}
    (hi : item.Local) (hsep : separator.Local) : (separated item separator hs).Local :=
  hi.bind fun first => local_loop
    (fun _ => hsep.ifPresent (hi.map _) (local_pure _)) [first]

end TableSchema.Rule
