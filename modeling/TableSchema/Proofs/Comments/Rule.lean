import TableSchema.Proofs.Comments.Scan

/-!
# Rules around a comment

A rule reads the same value from both texts, and what it leaves is again the same but for the
comment, if nothing that it takes whole has the place in it. `Program.transparent` shows it of
every program, by the lemma for each rule that reads a token and the one for each combinator.
-/

namespace TableSchema

open Rule Scan Unicode

/-- Whatever takes the place is a group in which the comment does not count. -/
def Spares (r : Replacement) (extents : List Extent) : Prop :=
  ∀ e ∈ extents, e.covers r.behind → e.kind = .group ∧ r.Harmless

instance (r : Replacement) (extents : List Extent) : Decidable (Spares r extents) := by
  unfold Spares; infer_instance

/-- The same value, and rests that are the same but for the comment. -/
def Agrees (r : Replacement) (x y : Option (α × List Char)) : Prop :=
  Option.Rel (fun p q => p.1 = q.1 ∧ Commented r p.2 q.2) x y

section

variable {r : Replacement} {s t : List Char}

theorem spares_append {es fs : List Extent} :
    Spares r (es ++ fs) ↔ Spares r es ∧ Spares r fs := List.forall_mem_append

theorem Spares.not_covers {es : List Extent} (h : Spares r es) (he : e ∈ es)
    (hk : e.kind ≠ .group) : ¬ e.covers r.behind := fun hc => hk (h e he hc).1

theorem agrees_none_iff {y : Option (α × List Char)} : Agrees r none y ↔ y = none := by
  constructor
  · intro h
    cases h
    rfl
  · rintro rfl
    exact .none

theorem agrees_some_iff {a : α} {y : Option (α × List Char)} :
    Agrees r (some (a, rest)) y ↔ ∃ rest', y = some (a, rest') ∧ Commented r rest rest' := by
  constructor
  · intro h
    cases h with
    | @some _ y h =>
      obtain ⟨rfl, h⟩ := h
      exact ⟨y.2, rfl, h⟩
  · rintro ⟨rest', rfl, h⟩
    exact .some ⟨rfl, h⟩

/-- Behind the place a rule reads one text. -/
theorem agrees_behind (p : Rule α) (hs : s <:+ r.behind) : Agrees r (p.read s) (p.read s) := by
  cases hr : p.read s with
  | none => exact .none
  | some x => exact .some ⟨rfl, .suffix ((read_suffix hr).trans hs)⟩

-- ---------------------------------------------------------------------------
-- Trivia
-- ---------------------------------------------------------------------------

theorem kind_of_mem_comments (h : e ∈ comments s) : e.kind = .comment := by
  fun_induction comments s with
  | case1 => cases h
  | case2 c rest _ ih =>
    rcases List.mem_cons.mp h with rfl | h
    · rfl
    · exact ih h
  | case3 c rest _ _ ih =>
    rcases List.mem_cons.mp h with rfl | h
    · rfl
    · exact ih h
  | case4 c rest _ _ _ ih => exact ih h
  | case5 => cases h

theorem Commented.skipTrivia (h : Commented r s t) (hc : Spares r (comments s)) :
    Commented r (skipTrivia s) (skipTrivia t) :=
  h.lift skipTrivia_suffix fun ha => ha.skipTrivia fun _ he =>
    hc.not_covers he (by rw [kind_of_mem_comments he]; decide)

/-- The blank is trivia, so behind trivia the texts begin alike. -/
theorem Ahead.exists_cons (h : Ahead r (Scan.skipTrivia s) (Scan.skipTrivia t)) :
    ∃ c s' t', Scan.skipTrivia s = c :: s' ∧ Scan.skipTrivia t = c :: t' ∧ Ahead r s' t' := by
  have hagain := skipTrivia_skipTrivia s
  generalize Scan.skipTrivia s = u at h hagain
  generalize Scan.skipTrivia t = v at h
  cases h with
  | here =>
    have := (skipTrivia_suffix r.behind).length_le
    rw [skipTrivia_before] at hagain
    rw [hagain, Replacement.before, List.length_cons] at this
    omega
  | cons c h => exact ⟨c, _, _, rfl, rfl, h⟩

-- ---------------------------------------------------------------------------
-- Words and symbols
-- ---------------------------------------------------------------------------

theorem Ahead.takeWhile_eq (h : Ahead r s t) (hf : ∀ c, f c = true → isSolid c = true) :
    s.takeWhile f = t.takeWhile f ∧ Ahead r (s.dropWhile f) (t.dropWhile f) := by
  induction h with
  | here =>
    have hblank : f r.blank = false := by
      by_contra hb
      have := hf r.blank (by simpa using hb)
      simp [Replacement.isSolid_blank] at this
    have hslash : f '/' = false := by
      by_contra hb
      have := hf '/' (by simpa using hb)
      simp [isSolid] at this
    simp only [Replacement.before, Replacement.after, List.takeWhile_cons, List.dropWhile_cons,
      hblank, hslash]
    exact ⟨rfl, .here⟩
  | cons c h ih =>
    rw [List.takeWhile_cons, List.takeWhile_cons, List.dropWhile_cons, List.dropWhile_cons]
    split
    · exact ⟨by rw [ih.1], ih.2⟩
    · exact ⟨rfl, .cons c h⟩

/-- Token rules skip trivia, so it is enough to compare them where the texts begin alike. -/
theorem agrees_token {p : Rule α} (hp : ∀ u, p.read (skipTrivia u) = p.read u)
    (h : Commented r s t) (hc : Spares r (comments s))
    (ha : Ahead r (skipTrivia s) (skipTrivia t) → Agrees r (p.read s) (p.read t)) :
    Agrees r (p.read s) (p.read t) := by
  rcases h.skipTrivia hc with h | ⟨hs, ht⟩
  · exact ha h
  · rw [← hp s, ← hp t, ht]
    exact agrees_behind p hs

theorem agrees_keyword {w : String} (hw : isCapital w = true) (h : Commented r s t)
    (hc : Spares r (comments s)) : Agrees r ((keyword w).read s) ((keyword w).read t) := by
  refine agrees_token (fun u => ?_) h hc fun ha => ?_
  · rw [read_keyword hw, read_keyword hw, nextWord, nextWord, afterWord, afterWord,
      skipTrivia_skipTrivia]
  · obtain ⟨htake, hdrop⟩ := ha.takeWhile_eq fun _ => isSolid_of_isWordChar
    rw [read_keyword hw, read_keyword hw, nextWord, nextWord, htake]
    split
    · exact .some ⟨rfl, .inl hdrop⟩
    · exact .none

theorem agrees_run1 {accepts : Char → Bool} (hf : ∀ c, accepts c = true → isSolid c = true)
    (h : Commented r s t) (hc : Spares r (comments s)) :
    Agrees r ((run1 accepts).read s) ((run1 accepts).read t) := by
  refine agrees_token (fun u => ?_) h hc fun ha => ?_
  · simp only [read_run1, skipTrivia_skipTrivia]
  · obtain ⟨htake, hdrop⟩ := ha.takeWhile_eq hf
    rw [read_run1, read_run1, ha.head?_any hf]
    split
    · exact .some ⟨htake, .inl hdrop⟩
    · exact .none

theorem afterSymbol?_cons_cons (m c : Char) (mark s : List Char) :
    afterSymbol? (m :: mark) (c :: s) = if m = c then afterSymbol? mark s else none := by
  by_cases h : m = c <;> simp [afterSymbol?, h]

theorem Ahead.afterSymbol? {mark : List Char} (hm : mark.all isSolid = true) (h : Ahead r s t) :
    Agrees r (afterSymbol? mark s) (afterSymbol? mark t) := by
  induction mark generalizing s t with
  | nil => exact .some ⟨rfl, .inl h⟩
  | cons m mark ih =>
    simp only [List.all_cons, Bool.and_eq_true] at hm
    cases h with
    | here =>
      have hblank : m ≠ r.blank := by
        rintro rfl
        simp [Replacement.isSolid_blank] at hm
      have hslash : m ≠ '/' := by
        rintro rfl
        simp [isSolid] at hm
      rw [Replacement.before, Replacement.after, afterSymbol?_cons_cons, afterSymbol?_cons_cons,
        if_neg hblank, if_neg hslash]
      exact .none
    | cons c h =>
      rw [afterSymbol?_cons_cons, afterSymbol?_cons_cons]
      split
      · exact ih hm.2 h
      · exact .none

theorem agrees_symbol {text : String} (hm : text.toList.all isSolid = true) (h : Commented r s t)
    (hc : Spares r (comments s)) : Agrees r ((symbol text).read s) ((symbol text).read t) := by
  refine agrees_token (fun u => ?_) h hc fun ha => ?_
  · simp only [read_symbol, skipTrivia_skipTrivia]
  · exact ha.afterSymbol? hm

-- ---------------------------------------------------------------------------
-- Quoted tokens
-- ---------------------------------------------------------------------------

theorem Ahead.quoted {opens : Char → Prop} [DecidablePred opens]
    (hopens : ∀ c, opens c → isQuote c = true) (value : Char → List Char → α)
    (h : Ahead r (c :: s) (c :: t)) (hst : Ahead r s t)
    (hc : Spares r (quotedExtent opens escapes (c :: s))) :
    Agrees r (quoted opens escapes value (c :: s)) (quoted opens escapes value (c :: t)) := by
  rw [quotedExtent] at hc
  rw [TableSchema.quoted, TableSchema.quoted]
  split
  next ho =>
    rw [if_pos ho] at hc
    have hr := hc.not_covers (List.mem_singleton_self _) (by rintro ⟨⟩)
    have hlt : r.behind.length < (Scan.afterLiteral c escapes s).length :=
      Nat.lt_of_not_le fun hle => hr ⟨hle, h.length_lt⟩
    rw [Scan.afterLiteral] at hlt
    cases hs : Scan.readLiteral c escapes s with
    | none => simp [hs] at hlt
    | some found =>
      obtain ⟨body, rest⟩ := found
      obtain ⟨rest', ht, hrest⟩ := hst.readLiteral (hopens c ho) hs (by simpa [hs] using hlt)
      rw [ht]
      exact .some ⟨rfl, .inl hrest⟩
  next => exact .none

theorem agrees_quotedName (h : Commented r s t) (hc : Spares r (Program.quotedName.extents s)) :
    Agrees r (quotedName.read s) (quotedName.read t) := by
  obtain ⟨htrivia, hquoted⟩ := spares_append.mp hc
  refine agrees_token (fun u => ?_) h htrivia fun ha => ?_
  · simp only [read_quotedName, skipTrivia_skipTrivia]
  · obtain ⟨c, s', t', hs, ht, hst⟩ := ha.exists_cons
    rw [read_quotedName, read_quotedName, hs, ht]
    rw [hs, ht] at ha
    rw [hs] at hquoted
    refine ha.quoted (fun c hc => ?_) _ hst hquoted
    rcases hc with rfl | rfl <;> rfl

theorem agrees_literal (hq : isQuote quote = true) (h : Commented r s t)
    (hc : Spares r ((Program.literal quote hq).extents s)) :
    Agrees r ((literal quote).read s) ((literal quote).read t) := by
  obtain ⟨htrivia, hquoted⟩ := spares_append.mp hc
  refine agrees_token (fun u => ?_) h htrivia fun ha => ?_
  · simp only [read_literal, skipTrivia_skipTrivia]
  · obtain ⟨c, s', t', hs, ht, hst⟩ := ha.exists_cons
    rw [read_literal, read_literal, hs, ht]
    rw [hs, ht] at ha
    rw [hs] at hquoted
    refine ha.quoted (fun c hc => ?_) _ hst hquoted
    exact hc ▸ hq

-- ---------------------------------------------------------------------------
-- Values and skipped tokens
-- ---------------------------------------------------------------------------

/-- What is taken whole and is no group leaves the place ahead. -/
theorem Ahead.lt_of_spares {es : List Extent} (h : Ahead r s t) (hc : Spares r es)
    (he : ⟨kind, s, rest⟩ ∈ es) (hk : kind ≠ .group) : r.behind.length < rest.length :=
  Nat.lt_of_not_le fun hle => hc.not_covers he hk ⟨hle, h.length_lt⟩

theorem agrees_bare (stopAtCast : Bool) (h : Commented r s t)
    (hc : Spares r ((Program.bare stopAtCast).extents s)) :
    Agrees r ((bare stopAtCast).read s) ((bare stopAtCast).read t) := by
  obtain ⟨htrivia, hvalue⟩ := spares_append.mp hc
  refine agrees_token (fun u => ?_) h htrivia fun ha => ?_
  · simp only [read_bare, skipTrivia_skipTrivia]
  · have hrest := ha.pastBare (ha.lt_of_spares hvalue (List.mem_singleton_self _) (by decide))
    rw [read_bare, read_bare, ← ha.endsBare_eq]
    split
    · exact .none
    · rw [ha.take_eq hrest (pastBare_suffix ..)]
      exact .some ⟨rfl, .inl hrest⟩

theorem Commented.pastToken (h : Commented r s t) (hc : Spares r (comments s))
    (he : Spares r (tokenExtent (Scan.skipTrivia s))) : Commented r (pastToken s) (pastToken t) := by
  rcases h.skipTrivia hc with ha | ⟨hs, ht⟩
  · obtain ⟨c, s', t', hs, ht, hst⟩ := ha.exists_cons
    have hlt := hs ▸ ha.length_lt
    rw [hs, tokenExtent] at he
    simp only [TableSchema.pastToken, hs, ht]
    split
    next hq =>
      rw [if_pos hq] at he
      exact hst.pastLiteral hq fun hle => (he _ (List.mem_singleton_self _) ⟨hle, hlt⟩).2
    next hq =>
      rw [if_neg hq] at he
      split
      next ho =>
        rw [if_pos ho] at he
        exact hst.pastGroup fun hle => (he _ (List.mem_singleton_self _) ⟨hle, hlt⟩).2
      next =>
        split
        · exact .inl (hst.takeWhile_eq fun _ => isSolid_of_isWordChar).2
        · exact .inl hst
  · have heq : TableSchema.pastToken t = TableSchema.pastToken s := by
      simp only [TableSchema.pastToken, ht]
    rw [heq]
    cases hc : Scan.skipTrivia s with
    | nil => simp [TableSchema.pastToken, hc, Commented.suffix]
    | cons c rest =>
      have := pastToken_suffix_tail hc
      exact .suffix ((this.trans (List.suffix_cons c rest)).trans (hc ▸ hs))

theorem agrees_unclaimed (h : Commented r s t) (hc : Spares r (Program.unclaimed.extents s)) :
    Agrees r (unclaimed.read s) (unclaimed.read t) := by
  obtain ⟨htrivia, htoken⟩ := spares_append.mp hc
  have hrest := h.pastToken htrivia htoken
  refine agrees_token (fun u => ?_) h htrivia fun ha => ?_
  · rw [read_unclaimed, read_unclaimed, atItemEnd_skipTrivia, pastToken_skipTrivia]
  · obtain ⟨c, s', t', hs, ht, -⟩ := ha.exists_cons
    rw [read_unclaimed, read_unclaimed, atItemEnd, atItemEnd, hs, ht]
    dsimp only
    split
    · exact .none
    · exact .some ⟨rfl, hrest⟩

-- ---------------------------------------------------------------------------
-- Combinators
-- ---------------------------------------------------------------------------

/-- The rule reads alike from both texts if what it takes whole spares the place. -/
def Transparent (r : Replacement) (p : Rule α) (extents : List Char → List Extent) : Prop :=
  ∀ ⦃s t⦄, Commented r s t → Spares r (extents s) → Agrees r (p.read s) (p.read t)

theorem Transparent.bind {p : Rule α} {f : α → Rule β} {ep : List Char → List Extent}
    {ef : α → List Char → List Extent} (hp : Transparent r p ep)
    (hf : ∀ a, Transparent r (f a) (ef a)) : Transparent r (p >>= f) (bindExtents p ep ef) := by
  intro s t h hc
  obtain ⟨hfirst, hnext⟩ := spares_append.mp hc
  have hx := hp h hfirst
  rw [read_bind, read_bind]
  rcases hs : p.read s with _ | ⟨a, rest⟩ <;> rw [hs] at hx hnext
  · rw [agrees_none_iff.mp hx]
    exact .none
  · obtain ⟨rest', ht, hrest⟩ := agrees_some_iff.mp hx
    rw [ht]
    exact hf a hrest hnext

theorem Transparent.orElse {p q : Rule α} {ep eq : List Char → List Extent}
    (hp : Transparent r p ep) (hq : Transparent r q eq) :
    Transparent r (p <|> q) (orElseExtents p ep eq) := by
  intro s t h hc
  obtain ⟨hfirst, hsecond⟩ := spares_append.mp hc
  have hx := hp h hfirst
  rw [read_orElse, read_orElse]
  rcases hs : p.read s with _ | ⟨a, rest⟩ <;> rw [hs] at hx hsecond
  · rw [agrees_none_iff.mp hx]
    exact hq h hsecond
  · obtain ⟨rest', ht, hrest⟩ := agrees_some_iff.mp hx
    rw [ht]
    exact .some ⟨rfl, hrest⟩

theorem Transparent.ahead {p : Rule α} {ep : List Char → List Extent} (hp : Transparent r p ep) :
    Transparent r p.ahead ep := by
  intro s t h hc
  have hx := hp h hc
  rw [read_ahead, read_ahead]
  generalize p.read s = x at hx
  generalize p.read t = y at hx
  cases hx <;> exact .some ⟨rfl, h⟩

theorem Transparent.source {p : Rule α} {ep : List Char → List Extent} (hp : Transparent r p ep) :
    Transparent r p.source (sourceExtents p ep) := by
  intro s t h hc
  obtain ⟨hc, hvalue⟩ := spares_append.mp hc
  obtain ⟨htrivia, hinner⟩ := spares_append.mp hc
  refine agrees_token (fun u => ?_) h htrivia fun ha => ?_
  · rw [read_source, read_source, skipTrivia_skipTrivia]
  · have hx := hp (.inl ha) hinner
    rw [read_source, read_source]
    rcases hs : p.read (skipTrivia s) with _ | ⟨a, rest⟩ <;> rw [hs] at hx hvalue
    · rw [agrees_none_iff.mp hx]
      exact .none
    · obtain ⟨rest', ht, hrest⟩ := agrees_some_iff.mp hx
      have hlt := ha.lt_of_spares hvalue (List.mem_singleton_self _) (by decide)
      rcases hrest with hrest | ⟨hsuffix, -⟩
      · rw [ht]
        exact .some ⟨ha.take_eq hrest (read_suffix hs), .inl hrest⟩
      · exact absurd hlt (Nat.not_lt_of_le hsuffix.length_le)

theorem Transparent.loop {round : σ → Rule (Round σ β)} {advances : ∀ x, (round x).Advances}
    {extents : σ → List Char → List Extent} (h : ∀ x, Transparent r (round x) (extents x)) (x : σ) :
    Transparent r (loop round advances x) (loopExtents round advances extents x) := by
  intro s t hst hc
  -- Each round leaves less of the first text.
  induction hn : s.length using Nat.strongRecOn generalizing x s t with
  | ind n ih =>
    rw [loopExtents] at hc
    obtain ⟨hround, hnext⟩ := spares_append.mp hc
    have hx := h x hst hround
    rw [read_loop, read_loop]
    rcases hs : (round x).read s with _ | ⟨_ | b, rest⟩ <;> rw [hs] at hx
    · rw [agrees_none_iff.mp hx]
      exact .none
    · rename_i y
      obtain ⟨rest', ht, hrest⟩ := agrees_some_iff.mp hx
      rw [ht]
      refine ih _ (hn ▸ advances x s _ rest hs) y hrest ?_ rfl
      split at hnext
      next he => rw [hs] at he; cases he; exact hnext
      next hne => exact absurd hs (hne y rest)
    · obtain ⟨rest', ht, hrest⟩ := agrees_some_iff.mp hx
      rw [ht]
      exact .some ⟨rfl, hrest⟩

/-- A rule of which a program is known reads around the comment. -/
theorem Rule.Program.transparent {p : Rule α} (P : Program p) : Transparent r p P.extents := by
  induction P with
  | pure a => exact fun _ _ h _ => .some ⟨rfl, h⟩
  | never => exact fun _ _ _ _ => .none
  | miss expected => exact fun _ _ _ _ => .none
  | keyword w hw => exact fun _ _ => agrees_keyword hw
  | symbol text hm => exact fun _ _ => agrees_symbol hm
  | run1 accepts hf => exact fun _ _ => agrees_run1 hf
  | quotedName => exact fun _ _ => agrees_quotedName
  | literal quote hq => exact fun _ _ => agrees_literal hq
  | bare stopAtCast => exact fun _ _ => agrees_bare stopAtCast
  | unclaimed => exact fun _ _ => agrees_unclaimed
  | bind _ _ hp hf => exact hp.bind hf
  | orElse _ _ hp hq => exact hp.orElse hq
  | ahead _ hp => exact hp.ahead
  | source _ hp => exact hp.source
  | loop x _ h => exact Transparent.loop h x

end

end TableSchema
