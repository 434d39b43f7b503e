import TableSchema.Proofs.Casts.Seam
import TableSchema.Proofs.Continuation.Rule
import TableSchema.Proofs.Failures.Rule

/-!
# Rules at a seam

A rule that reads up to a seam has to read the same where the text ends there. Parts that are tried
and left may read on behind the seam first, so three properties go together: `Detached`, that a part
decides alike on the cut text; `OneToken`, of parts that begin before the seam or not at all; and
`Exhausts`, of optional parts, which where they would read on leave nothing of the cut text. What
must be there behind such a part is then missing in either text. `Seals` gives the seam. The text
need not be closed as a statement is, so what holds of texts that go on is of no use here.
-/

namespace TableSchema.Rule

open Scan

/-- What the rule reads up to the seam it reads of the cut text, and what it does not read of the
whole text it does not read of the cut one. -/
structure Detached (rest : List Char) (p : Rule α) : Prop where
  reads ⦃u a v⦄ : Seam u rest → p.read (u ++ rest) = some (a, v ++ rest) → p.read u = some (a, v)
  refuses ⦃u⦄ : Seam u rest → p.read (u ++ rest) = none → p.read u = none

/-- The rule reads nothing where only trivia is left. -/
def NeedsToken (p : Rule α) : Prop := ∀ ⦃s⦄, skipTrivia s = [] → p.read s = none

/-- The rule reads a token that begins before the seam as a token of the cut text. -/
structure OneToken (rest : List Char) (p : Rule α) : Prop where
  needs : p.NeedsToken
  before ⦃u⦄ : Seam u rest → skipTrivia u ≠ [] →
    p.read (u ++ rest) = (p.read u).map fun x => (x.1, x.2 ++ rest)
  behind ⦃u a s⦄ : Seam u rest → skipTrivia u = [] → p.read (u ++ rest) = some (a, s) →
    s.length < rest.length

/-- Where the rule reads on behind the seam, it leaves nothing but trivia of the cut text. -/
structure Exhausts (rest : List Char) (p : Rule α) : Prop extends p.Detached rest where
  spent ⦃s a v⦄ : skipTrivia s = [] → p.read s = some (a, v) → skipTrivia v = []
  crosses ⦃u a s b v⦄ : Seam u rest → p.read (u ++ rest) = some (a, s) → s.length < rest.length →
    p.read u = some (b, v) → skipTrivia v = []

/-- What the rule reads ends at a seam. -/
def Seals (p : Rule α) : Prop :=
  ∀ ⦃s a rest⦄, p.read s = some (a, rest) → ∃ u, s = u ++ rest ∧ Seam u rest

section

variable {rest : List Char}

/-- A rule stops before the seam or behind it. -/
theorem read_append_cases {p : Rule α} (h : p.read (u ++ rest) = some (a, s)) :
    (∃ v, v <:+ u ∧ s = v ++ rest) ∨ s.length < rest.length := by
  rcases List.suffix_or_suffix_of_suffix (read_suffix h) (List.suffix_append u rest) with
    hs | ⟨v, rfl⟩
  · rcases hs.length_le.eq_or_lt with heq | hlt
    · exact .inl ⟨[], List.nil_suffix, hs.eq_of_length heq⟩
    · exact .inr hlt
  · exact .inl ⟨v, (List.suffix_append_self_iff).mp (read_suffix h), rfl⟩

-- ---------------------------------------------------------------------------
-- Single tokens
-- ---------------------------------------------------------------------------

theorem OneToken.detached {p : Rule α} (hp : p.OneToken rest) : p.Detached rest where
  reads u a v hs h := by
    by_cases hu : skipTrivia u = []
    · have := hp.behind hs hu h
      simp only [List.length_append] at this
      omega
    · rw [hp.before hs hu, Option.map_eq_some_iff] at h
      obtain ⟨⟨b, w⟩, hr, he⟩ := h
      simp only [Prod.mk.injEq, List.append_cancel_right_eq] at he
      rw [hr, he.1, he.2]
  refuses u hs h := by
    by_cases hu : skipTrivia u = []
    · exact hp.needs hu
    · rwa [hp.before hs hu, Option.map_eq_none_iff] at h

/-- A token that is read behind the seam begins behind it. -/
theorem OneToken.skipTrivia_eq_nil {p : Rule α} (hp : p.OneToken rest) (hs : Seam u rest)
    (h : p.read (u ++ rest) = some (a, s)) (hlt : s.length < rest.length) :
    skipTrivia u = [] := by
  by_contra hu
  rw [hp.before hs hu, Option.map_eq_some_iff] at h
  obtain ⟨⟨b, w⟩, -, he⟩ := h
  cases he
  simp only [List.length_append] at hlt
  omega

/-- A rule that skips trivia and then looks at what comes next. -/
theorem oneToken_of_skipTrivia {p : Rule α} (f : List Char → Option (α × List Char))
    (hp : ∀ s, p.read s = f (skipTrivia s)) (hc : p.Consumes) (hnil : f [] = none)
    (hf : ∀ ⦃u⦄, Seam u rest → u ≠ [] → f (u ++ rest) = (f u).map fun x => (x.1, x.2 ++ rest)) :
    p.OneToken rest where
  needs s hs := by rw [hp, hs, hnil]
  before u hs hu := by
    obtain ⟨-, hskip⟩ := (skipTrivia_seam hs).resolve_right fun hn => hu hn.1
    rw [hp, hp, hskip, hf (hs.suffix (skipTrivia_suffix u)) hu]
  behind u a s hs hu h := by
    obtain ⟨-, hrest⟩ := (skipTrivia_seam hs).resolve_left fun hn => hn.1 hu
    rw [hp, ← skipTrivia_skipTrivia, ← hp] at h
    exact Nat.lt_of_lt_of_le (hc _ _ _ h) hrest.length_le

theorem OneToken.orElse {p q : Rule α} (hp : p.OneToken rest) (hq : q.OneToken rest) :
    (p <|> q).OneToken rest where
  needs s hs := by rw [read_orElse, hp.needs hs, hq.needs hs]; rfl
  before u hs hu := by
    rw [read_orElse, read_orElse, hp.before hs hu, hq.before hs hu]
    cases p.read u <;> rfl
  behind u a s hs hu h := by
    rcases read_orElse_eq_some.mp h with h | ⟨-, h⟩
    · exact hp.behind hs hu h
    · exact hq.behind hs hu h

/-- A token with another value. -/
theorem OneToken.bind_pure {p : Rule α} (hp : p.OneToken rest) (f : α → β) :
    (p >>= fun a => pure (f a)).OneToken rest where
  needs s hs := by rw [read_bind, hp.needs hs]; rfl
  before u hs hu := by
    rw [read_bind, read_bind, hp.before hs hu]
    cases p.read u <;> rfl
  behind u b s hs hu h := by
    obtain ⟨a, middle, ha, hb⟩ := read_bind_eq_some.mp h
    cases hb
    exact hp.behind hs hu ha

theorem oneToken_never : (never : Rule α).OneToken rest where
  needs _ _ := rfl
  before _ _ _ := rfl
  behind _ _ _ _ _ h := by cases h

theorem oneToken_firstOf {rules : List (Rule α)} (h : ∀ p ∈ rules, p.OneToken rest) :
    (firstOf rules).OneToken rest :=
  firstOf_induction oneToken_never (fun _ _ => .orElse) h

-- ---------------------------------------------------------------------------
-- Detached rules
-- ---------------------------------------------------------------------------

theorem detached_pure (a : α) : (pure a : Rule α).Detached rest where
  reads u b v _ h := by
    rw [read, run_pure, Option.some.injEq, Prod.mk.injEq, List.append_cancel_right_eq] at h
    rw [read, run_pure, h.1, h.2]
  refuses _ _ h := by cases h

theorem detached_never : (never : Rule α).Detached rest := oneToken_never.detached

theorem Detached.orElse {p q : Rule α} (hp : p.Detached rest) (hq : q.Detached rest) :
    (p <|> q).Detached rest where
  reads u a v hs h := by
    rcases read_orElse_eq_some.mp h with h | ⟨hn, h⟩
    · exact read_orElse_eq_some.mpr (.inl (hp.reads hs h))
    · exact read_orElse_eq_some.mpr (.inr ⟨hp.refuses hs hn, hq.reads hs h⟩)
  refuses u hs h := by
    rw [read_orElse, Option.or_eq_none_iff] at h ⊢
    exact ⟨hp.refuses hs h.1, hq.refuses hs h.2⟩

/-- The second part begins where the first one ends, which is before the seam if the second part
ends there. -/
theorem read_bind_seam {p : Rule α} {f : α → Rule β} (hp : p.Detached rest)
    (hf : ∀ a, (f a).Detached rest) (hs : Seam u rest)
    (h : (p >>= f).read (u ++ rest) = some (b, v ++ rest)) : (p >>= f).read u = some (b, v) := by
  obtain ⟨a, middle, ha, hb⟩ := read_bind_eq_some.mp h
  rcases read_append_cases ha with ⟨w, hw, rfl⟩ | hlt
  · exact read_bind_eq_some.mpr ⟨a, w, hp.reads hs ha, (hf a).reads (hs.suffix hw) hb⟩
  · have := (read_suffix hb).length_le
    simp only [List.length_append] at this
    omega

/-- In a sequence that fails, the first part fails on the cut text, or the second one does unless
the first one has read on behind the seam. -/
theorem read_bind_seam_none {p : Rule α} {f : α → Rule β} (hp : p.Detached rest)
    (hf : ∀ a, (f a).Detached rest) (hs : Seam u rest) (h : (p >>= f).read (u ++ rest) = none)
    (hcross : ∀ ⦃a s⦄, p.read (u ++ rest) = some (a, s) → s.length < rest.length →
      (p >>= f).read u = none) : (p >>= f).read u = none := by
  cases ha : p.read (u ++ rest) with
  | none => rw [read_bind, hp.refuses hs ha]; rfl
  | some found =>
    obtain ⟨a, s⟩ := found
    rcases read_append_cases ha with ⟨w, hw, rfl⟩ | hlt
    · rw [read_bind, ha] at h
      rw [read_bind, hp.reads hs ha]
      exact (hf a).refuses (hs.suffix hw) h
    · exact hcross ha hlt

theorem OneToken.bind {p : Rule α} {f : α → Rule β} (hp : p.OneToken rest)
    (hf : ∀ a, (f a).Detached rest) : (p >>= f).Detached rest where
  reads _ _ _ hs h := read_bind_seam hp.detached hf hs h
  refuses u hs h := by
    refine read_bind_seam_none hp.detached hf hs h fun a s ha hlt => ?_
    rw [read_bind, hp.needs (hp.skipTrivia_eq_nil hs ha hlt)]
    rfl

theorem Exhausts.bind {p : Rule α} {f : α → Rule β} (hp : p.Exhausts rest)
    (hf : ∀ a, (f a).Detached rest) (hn : ∀ a, (f a).NeedsToken) : (p >>= f).Detached rest where
  reads _ _ _ hs h := read_bind_seam hp.toDetached hf hs h
  refuses u hs h := by
    refine read_bind_seam_none hp.toDetached hf hs h fun a s ha hlt => ?_
    rw [read_bind]
    cases hu : p.read u with
    | none => rfl
    | some found => exact hn found.1 (hp.crosses hs ha hlt hu)

theorem Detached.bind {p : Rule α} {f : α → Rule β} (hp : p.Detached rest)
    (hf : ∀ a, (f a).Detached rest) (ht : ∀ a, (f a).Total) : (p >>= f).Detached rest where
  reads _ _ _ hs h := read_bind_seam hp hf hs h
  refuses u hs h := by
    refine read_bind_seam_none hp hf hs h fun a s ha _ => ?_
    have hsome := ht a s
    rw [read_bind, ha, Option.bind_some] at h
    rw [h] at hsome
    cases hsome

theorem Detached.map {p : Rule α} (f : α → β) (hp : p.Detached rest) : (f <$> p).Detached rest :=
  hp.bind (fun a => detached_pure (f a)) fun a => total_pure (f a)

/-- Parts of which none refuses follow one another. -/
theorem Detached.bind_of_total {p : Rule α} {f : α → Rule β} (hp : p.Detached rest ∧ p.Total)
    (hf : ∀ a, (f a).Detached rest ∧ (f a).Total) :
    (p >>= f).Detached rest ∧ (p >>= f).Total :=
  ⟨hp.1.bind (fun a => (hf a).1) fun a => (hf a).2, total_bind hp.2 fun a => (hf a).2⟩

theorem Detached.option {p : Rule α} (hp : p.Detached rest) : p.option.Detached rest :=
  (hp.map some).orElse (detached_pure none)

theorem detached_ite {p q : Rule α} (c : Prop) [Decidable c] (hp : p.Detached rest)
    (hq : q.Detached rest) : (if c then p else q).Detached rest := by
  split
  · exact hp
  · exact hq

theorem detached_firstOf {rules : List (Rule α)} (h : ∀ p ∈ rules, p.Detached rest) :
    (firstOf rules).Detached rest :=
  firstOf_induction detached_never (fun _ _ => .orElse) h

/-- Rounds go on up to the seam and no further, in the whole text and in the cut one. -/
theorem detached_iterate {p : σ → Rule σ} {hc : ∀ x, (p x).Consumes}
    (hp : ∀ x, (p x).Detached rest) (x : σ) : (iterate p hc x).Detached rest where
  reads u y v hs h := by
    induction hn : u.length using Nat.strongRecOn generalizing x u with
    | ind n ih =>
      rw [read_iterate] at h ⊢
      cases hx : (p x).read (u ++ rest) with
      | none =>
        rw [hx, Option.some.injEq, Prod.mk.injEq, List.append_cancel_right_eq] at h
        rw [(hp x).refuses hs hx, h.1, h.2]
      | some found =>
        obtain ⟨z, s⟩ := found
        rw [hx] at h
        rcases read_append_cases hx with ⟨w, hw, rfl⟩ | hlt
        · have hshort := hc x _ _ _ hx
          simp only [List.length_append, Nat.add_lt_add_iff_right] at hshort
          rw [(hp x).reads hs hx]
          exact ih _ (hn ▸ hshort) z w (hs.suffix hw) h rfl
        · have := (read_suffix h).length_le
          simp only [List.length_append] at this
          omega
  refuses u _ h := by
    have hsome : ((iterate p hc x).read (u ++ rest)).isSome = true := total_iterate x (u ++ rest)
    rw [h] at hsome
    cases hsome

-- ---------------------------------------------------------------------------
-- Optional tokens
-- ---------------------------------------------------------------------------

theorem exhausts_pure (a : α) : (pure a : Rule α).Exhausts rest where
  toDetached := detached_pure a
  spent s b v hs h := by cases h; exact hs
  crosses u b s c v _ h hlt := by
    cases h
    simp only [List.length_append] at hlt
    omega

/-- A token or nothing: the token is one of the cut text, or begins behind the seam. -/
theorem OneToken.orElse_pure {p : Rule α} (hp : p.OneToken rest) (b : α) :
    (p <|> pure b).Exhausts rest where
  toDetached := hp.detached.orElse (detached_pure b)
  spent s a v hs h := by
    rw [read_orElse, hp.needs hs, Option.none_or] at h
    cases h
    exact hs
  crosses u a s c v hs h hlt hu := by
    rcases read_orElse_eq_some.mp h with h | ⟨-, h⟩
    · have hnil := hp.skipTrivia_eq_nil hs h hlt
      rw [read_orElse, hp.needs hnil, Option.none_or] at hu
      cases hu
      exact hnil
    · cases h
      simp only [List.length_append] at hlt
      omega

theorem OneToken.option {p : Rule α} (hp : p.OneToken rest) : p.option.Exhausts rest :=
  (hp.bind_pure some).orElse_pure none

theorem OneToken.present {p : Rule α} (hp : p.OneToken rest) : p.present.Exhausts rest :=
  (hp.bind_pure fun _ => true).orElse_pure false

theorem Exhausts.bind_total {p : Rule α} {f : α → Rule β} (hp : p.Exhausts rest)
    (hf : ∀ a, (f a).Exhausts rest) (ht : ∀ a, (f a).Total) : (p >>= f).Exhausts rest where
  toDetached := hp.toDetached.bind (fun a => (hf a).toDetached) ht
  spent s b v hs h := by
    obtain ⟨a, middle, ha, hb⟩ := read_bind_eq_some.mp h
    exact (hf a).spent (hp.spent hs ha) hb
  crosses u b s c v hs h hlt hu := by
    obtain ⟨a, middle, ha, hb⟩ := read_bind_eq_some.mp h
    obtain ⟨a', middle', ha', hb'⟩ := read_bind_eq_some.mp hu
    rcases read_append_cases ha with ⟨w, hw, rfl⟩ | hcross
    · rw [hp.reads hs ha] at ha'
      cases ha'
      exact (hf a).crosses (hs.suffix hw) hb hlt hb'
    · exact (hf a').spent (hp.crosses hs ha hcross ha') hb'

theorem OneToken.ifPresent {p : Rule α} {yes no : Rule β} (hp : p.OneToken rest)
    (hy : yes.Exhausts rest ∧ yes.Total) (hn : no.Exhausts rest ∧ no.Total) :
    (ifPresent p yes no).Exhausts rest := by
  refine hp.present.bind_total (fun found => ?_) fun found => total_ite _ hy.2 hn.2
  cases found
  · exact hn.1
  · exact hy.1

theorem Exhausts.needsToken_bind {p : Rule α} {f : α → Rule β} (hp : p.Exhausts rest)
    (hf : ∀ a, (f a).NeedsToken) : (p >>= f).NeedsToken := by
  intro s hs
  rw [read_bind]
  cases ha : p.read s with
  | none => rfl
  | some found => exact hf found.1 (hp.spent hs ha)

end

-- ---------------------------------------------------------------------------
-- Where rules end
-- ---------------------------------------------------------------------------

theorem seals_pure (a : α) : (pure a : Rule α).Seals := by
  intro s b rest h
  cases h
  exact ⟨[], rfl, seam_nil _⟩

theorem seals_never : (never : Rule α).Seals := by
  intro s b rest h
  cases h

theorem Seals.bind {p : Rule α} {f : α → Rule β} (hp : p.Seals) (hf : ∀ a, (f a).Seals) :
    (p >>= f).Seals := by
  intro s b rest h
  obtain ⟨a, middle, ha, hb⟩ := read_bind_eq_some.mp h
  obtain ⟨v, rfl, hv⟩ := hf a hb
  obtain ⟨u, rfl, hu⟩ := hp ha
  exact ⟨u ++ v, (List.append_assoc ..).symm, hu.append hv⟩

/-- A sequence ends where its second part does, if that part reads anything. -/
theorem seals_bind_right {p : Rule α} {f : α → Rule β} (hf : ∀ a, (f a).Seals)
    (hc : ∀ a, (f a).Consumes) : (p >>= f).Seals := by
  intro s b rest h
  obtain ⟨a, middle, ha, hb⟩ := read_bind_eq_some.mp h
  have hlt := hc a _ _ _ hb
  obtain ⟨v, rfl, hv⟩ := hf a hb
  obtain ⟨u, rfl⟩ := read_suffix ha
  refine ⟨u ++ v, (List.append_assoc ..).symm, fun c hlast => hv c ?_⟩
  cases v with
  | nil => simp at hlt
  | cons d v => simpa using hlast

theorem closes_bind_right {p : Rule α} {f : α → Rule β}
    (hf : ∀ a, (f a).Seals ∧ (f a).Consumes) : (p >>= f).Seals ∧ (p >>= f).Consumes :=
  ⟨seals_bind_right (fun a => (hf a).1) fun a => (hf a).2, consumes_bind_right fun a => (hf a).2⟩

theorem Seals.map {p : Rule α} (f : α → β) (hp : p.Seals) : (f <$> p).Seals :=
  hp.bind fun a => seals_pure (f a)

theorem Seals.orElse {p q : Rule α} (hp : p.Seals) (hq : q.Seals) : (p <|> q).Seals := by
  intro s a rest h
  rcases read_orElse_eq_some.mp h with h | ⟨-, h⟩
  · exact hp h
  · exact hq h

theorem Seals.option {p : Rule α} (hp : p.Seals) : p.option.Seals :=
  (hp.map some).orElse (seals_pure none)

theorem seals_ite {p q : Rule α} (c : Prop) [Decidable c] (hp : p.Seals) (hq : q.Seals) :
    (if c then p else q).Seals := by
  split
  · exact hp
  · exact hq

theorem seals_firstOf {rules : List (Rule α)} (h : ∀ p ∈ rules, p.Seals) :
    (firstOf rules).Seals :=
  firstOf_induction seals_never (fun _ _ => .orElse) h

theorem seals_iterate {p : σ → Rule σ} {hc : ∀ x, (p x).Consumes} (hp : ∀ x, (p x).Seals) (x : σ) :
    (iterate p hc x).Seals := by
  intro s y rest h
  induction hn : s.length using Nat.strongRecOn generalizing x s with
  | ind n ih =>
    rw [read_iterate] at h
    cases hx : (p x).read s with
    | none =>
      rw [hx] at h
      cases h
      exact ⟨[], rfl, seam_nil _⟩
    | some found =>
      obtain ⟨z, middle⟩ := found
      rw [hx] at h
      obtain ⟨v, rfl, hv⟩ := ih _ (hn ▸ hc x _ _ _ hx) z h rfl
      obtain ⟨u, rfl, hu⟩ := hp x hx
      exact ⟨u ++ v, (List.append_assoc ..).symm, hu.append hv⟩

end TableSchema.Rule
