import Mathlib.Data.List.Forall2
import TableSchema.Proofs.RuleLaws

/-!
# Two runs of rules side by side

`Rule.Alike T R p q`: on texts that correspond by `T`, the rules `p` and `q` both give a value or
both give none, the values correspond by `R`, what is left corresponds by `T` again, and the two
runs miss the same things at corresponding places. Every combinator keeps this, so it is enough to
show it of the rules that read tokens. Trivia must be skipped alike, since misses are noted behind
it.
-/

namespace TableSchema

/-- Results of two runs that correspond. -/
structure Reading.Alike (T : List Char → List Char → Prop) (R : α → β → Prop) (x : Reading α)
    (y : Reading β) : Prop where
  result : Option.Rel (fun p q => R p.1 q.1 ∧ T p.2 q.2) x.result y.result
  misses : List.Forall₂ (fun m n => T m.rest n.rest ∧ m.expected = n.expected) x.misses y.misses

namespace Rule

def Alike (T : List Char → List Char → Prop) (R : α → β → Prop) (p : Rule α) (q : Rule β) : Prop :=
  ∀ ⦃s t⦄, T s t → Reading.Alike T R (p.run s) (q.run t)

section
variable {T : List Char → List Char → Prop}

-- ---------------------------------------------------------------------------
-- Sequence and choice
-- ---------------------------------------------------------------------------

theorem alike_pure (hab : R a b) : Alike T R (pure a) (pure b) :=
  fun _ _ h => ⟨.some ⟨hab, h⟩, .nil⟩

theorem alike_never : Alike T R never never := fun _ _ _ => ⟨.none, .nil⟩

theorem alike_miss (hT : ∀ ⦃s t⦄, T s t → T (Scan.skipTrivia s) (Scan.skipTrivia t))
    (expected : Expectation) : Alike T R (miss expected) (miss expected) :=
  fun _ _ h => ⟨.none, .cons ⟨hT h, rfl⟩ .nil⟩

theorem Alike.imp {p : Rule α} {q : Rule β} (hp : Alike T R p q) (hRS : ∀ ⦃a b⦄, R a b → S a b) :
    Alike T S p q := by
  intro s t h
  obtain ⟨hr, hm⟩ := hp h
  refine ⟨?_, hm⟩
  generalize (p.run s).result = x at hr
  generalize (q.run t).result = y at hr
  cases hr with
  | none => exact .none
  | some hr => exact .some ⟨hRS hr.1, hr.2⟩

theorem Alike.bind {p : Rule α} {q : Rule β} {f : α → Rule γ} {g : β → Rule δ}
    (hp : Alike T R p q) (hf : ∀ ⦃a b⦄, R a b → Alike T S (f a) (g b)) :
    Alike T S (p >>= f) (q >>= g) := by
  intro s t h
  obtain ⟨hr, hm⟩ := hp h
  rw [run_bind, run_bind, bindRun, bindRun]
  rcases hx : p.run s with ⟨_ | ⟨a, sr⟩, ms⟩ <;> rcases hy : q.run t with ⟨_ | ⟨b, tr⟩, ns⟩ <;>
    rw [hx, hy] at hr hm <;> cases hr
  · exact ⟨.none, hm⟩
  next hab =>
    obtain ⟨hr', hm'⟩ := hf hab.1 hab.2
    exact ⟨hr', List.rel_append hm hm'⟩

theorem Alike.orElse {p p' : Rule α} {q q' : Rule β} (hp : Alike T R p q)
    (hp' : Alike T R p' q') : Alike T R (p <|> p') (q <|> q') := by
  intro s t h
  obtain ⟨hr, hm⟩ := hp h
  obtain ⟨hr', hm'⟩ := hp' h
  rw [run_orElse, run_orElse, orElseRun, orElseRun]
  rcases hx : p.run s with ⟨_ | ⟨a, sr⟩, ms⟩ <;> rcases hy : q.run t with ⟨_ | ⟨b, tr⟩, ns⟩ <;>
    rw [hx, hy] at hr hm <;> cases hr
  · exact ⟨hr', List.rel_append hm hm'⟩
  next hab => exact ⟨.some hab, hm⟩

theorem Alike.map {p : Rule α} {q : Rule β} {f : α → γ} {g : β → δ} (hp : Alike T R p q)
    (hf : ∀ ⦃a b⦄, R a b → S (f a) (g b)) : Alike T S (f <$> p) (g <$> q) :=
  hp.bind fun _ _ hab => alike_pure (hf hab)

theorem Alike.seqRight {p : Rule α} {q : Rule β} {p' : Rule γ} {q' : Rule δ}
    (hp : Alike T R p q) (hp' : Alike T S p' q') : Alike T S (p *> p') (q *> q') :=
  hp.bind fun _ _ _ => hp'

theorem Alike.seqLeft {p : Rule α} {q : Rule β} {p' : Rule γ} {q' : Rule δ}
    (hp : Alike T R p q) (hp' : Alike T S p' q') : Alike T R (p <* p') (q <* q') :=
  hp.bind fun _ _ hab => hp'.bind fun _ _ _ => alike_pure hab

theorem alike_ite {p p' : Rule α} {q q' : Rule β} (c : Bool) (hp : Alike T R p q)
    (hp' : Alike T R p' q') : Alike T R (if c then p else p') (if c then q else q') := by
  cases c
  · exact hp'
  · exact hp

-- ---------------------------------------------------------------------------
-- Options and lookahead
-- ---------------------------------------------------------------------------

theorem Alike.orMiss {p : Rule α} {q : Rule β} (hp : Alike T R p q)
    (hT : ∀ ⦃s t⦄, T s t → T (Scan.skipTrivia s) (Scan.skipTrivia t)) (expected : Expectation) :
    Alike T R (p.orMiss expected) (q.orMiss expected) :=
  hp.orElse (alike_miss hT expected)

theorem Alike.option {p : Rule α} {q : Rule β} (hp : Alike T R p q) :
    Alike T (Option.Rel R) p.option q.option :=
  (hp.map fun _ _ h => .some h).orElse (alike_pure .none)

theorem Alike.present {p : Rule α} {q : Rule β} (hp : Alike T R p q) :
    Alike T (· = ·) p.present q.present :=
  (hp.seqRight (alike_pure rfl)).orElse (alike_pure rfl)

theorem Alike.ahead {p : Rule α} {q : Rule β} (hp : Alike T R p q) :
    Alike T (· = ·) p.ahead q.ahead := by
  intro s t h
  obtain ⟨hr, hm⟩ := hp h
  refine ⟨.some ⟨?_, h⟩, hm⟩
  generalize (p.run s).result = x at hr
  generalize (q.run t).result = y at hr
  cases hr <;> rfl

theorem Alike.ifPresent {p : Rule α} {q : Rule β} {yes no : Rule γ} {yes' no' : Rule δ}
    (hp : Alike T R p q) (hy : Alike T S yes yes') (hn : Alike T S no no') :
    Alike T S (ifPresent p yes no) (ifPresent q yes' no') := by
  refine hp.present.bind fun found _ hf => ?_
  subst hf
  exact alike_ite found hy hn

theorem Alike.ifAhead {p : Rule α} {q : Rule β} {yes no : Rule γ} {yes' no' : Rule δ}
    (hp : Alike T R p q) (hy : Alike T S yes yes') (hn : Alike T S no no') :
    Alike T S (ifAhead p yes no) (ifAhead q yes' no') := by
  refine hp.ahead.bind fun found _ hf => ?_
  subst hf
  exact alike_ite found hy hn

theorem alike_firstOf {ps : List (Rule α)} {qs : List (Rule β)}
    (h : List.Forall₂ (Alike T R) ps qs) : Alike T R (firstOf ps) (firstOf qs) := by
  induction h with
  | nil => exact alike_never
  | cons hp _ ih => exact hp.orElse ih

-- ---------------------------------------------------------------------------
-- Repetition
-- ---------------------------------------------------------------------------

/-- Both repetitions go on, or both end. -/
inductive Round.Alike (S : σ → τ → Prop) (R : α → β → Prop) : Round σ α → Round τ β → Prop where
  | again : S x y → Round.Alike S R (.again x) (.again y)
  | finish : R a b → Round.Alike S R (.finish a) (.finish b)

theorem alike_loop {p : σ → Rule (Round σ α)} {q : τ → Rule (Round τ β)}
    {hp : ∀ x, (p x).Advances} {hq : ∀ y, (q y).Advances}
    (h : ∀ ⦃x y⦄, S x y → Alike T (Round.Alike S R) (p x) (q y)) (hxy : S x y) :
    Alike T R (loop p hp x) (loop q hq y) := by
  intro s t ht
  -- Each round leaves less of the first text.
  induction hn : s.length using Nat.strongRecOn generalizing x y s t with
  | ind n ih =>
    obtain ⟨hr, hm⟩ := h hxy ht
    rw [run_loop, run_loop]
    rcases hx : (p x).run s with ⟨_ | ⟨a, sr⟩, ms⟩ <;>
      rcases hy : (q y).run t with ⟨_ | ⟨b, tr⟩, ns⟩ <;> rw [hx, hy] at hr hm <;> cases hr
    · exact ⟨.none, hm⟩
    next hab =>
      obtain ⟨hround, hrest⟩ := hab
      cases hround with
      | finish hab => exact ⟨.some ⟨hab, hrest⟩, hm⟩
      | again hxy' =>
        have hlt : sr.length < n := hn ▸ hp x s _ sr (by rw [hx])
        obtain ⟨hr', hm'⟩ := ih _ hlt hxy' hrest rfl
        exact ⟨hr', List.rel_append hm hm'⟩

theorem alike_iterate {p : σ → Rule σ} {q : τ → Rule τ} {hp : ∀ x, (p x).Consumes}
    {hq : ∀ y, (q y).Consumes} (h : ∀ ⦃x y⦄, S x y → Alike T S (p x) (q y)) (hxy : S x y) :
    Alike T S (iterate p hp x) (iterate q hq y) :=
  alike_loop (fun _ _ hxy =>
    ((h hxy).map fun _ _ => .again).orElse (alike_pure (.finish hxy))) hxy

theorem Alike.separated {p : Rule α} {q : Rule β} {sep sep' : Rule Unit} {hs : sep.Consumes}
    {hs' : sep'.Consumes} (hp : Alike T R p q) (hsep : Alike T (· = ·) sep sep') :
    Alike T (List.Forall₂ R) (separated p sep hs) (separated q sep' hs') := by
  refine hp.bind fun a b hab => ?_
  refine alike_loop (S := List.Forall₂ R) (fun xs ys hxs => ?_) (.cons hab .nil)
  refine hsep.ifPresent (hp.map fun c d hcd => ?_) (alike_pure (.finish hxs))
  exact .again (List.rel_append hxs (.cons hcd .nil))

end

end Rule

end TableSchema
