import TableSchema.Expectation
import TableSchema.Scan.Trivia

/-!
# Grammar rules

A rule reads a value from the start of a text. It gives the value with the rest of the text, or no
value; either way it lists what it required and did not find. An alternative that fails leaves no
trace but that list, so a rule tried after it starts at the same place.

What a rule leaves is a suffix of what it was given, and so is every place in its list. Both facts
are part of a rule, and `Rule.loop` ends because of the first.
-/

namespace TableSchema

/-- Something required was missing where `rest` was still to be read. -/
structure Miss where
  rest : List Char
  expected : Expectation
  deriving DecidableEq, Repr

structure Reading (α : Type) where
  result : Option (α × List Char)
  misses : List Miss

structure Rule (α : Type) where
  run : List Char → Reading α
  suffix_of_result : ∀ {s a rest}, (run s).result = some (a, rest) → rest <:+ s
  suffix_of_miss : ∀ {s m}, m ∈ (run s).misses → m.rest <:+ s

namespace Rule

/-- A rule that requires nothing, given by its result alone. -/
def ofResult (read : List Char → Option (α × List Char))
    (suffix : ∀ {s a rest}, read s = some (a, rest) → rest <:+ s) : Rule α where
  run s := ⟨read s, []⟩
  suffix_of_result h := suffix h
  suffix_of_miss h := by simp at h

protected def pure (a : α) : Rule α :=
  ofResult (fun s => some (a, s)) fun h => by cases h; exact List.suffix_refl _

/-- The rule that never gives a value. -/
def never : Rule α := ofResult (fun _ => none) fun h => by simp at h

/-- Gives no value because `expected` is missing at the next token. -/
def miss (expected : Expectation) : Rule α where
  run s := ⟨none, [⟨Scan.skipTrivia s, expected⟩]⟩
  suffix_of_result h := by simp at h
  suffix_of_miss h := by
    obtain rfl := List.mem_singleton.mp h
    exact Scan.skipTrivia_suffix _

def bindRun (p : Rule α) (f : α → Rule β) (s : List Char) : Reading β :=
  match p.run s with
  | ⟨none, misses⟩ => ⟨none, misses⟩
  | ⟨some (a, rest), misses⟩ =>
    let next := (f a).run rest
    ⟨next.result, misses ++ next.misses⟩

protected def bind (p : Rule α) (f : α → Rule β) : Rule β where
  run := p.bindRun f
  suffix_of_result {s b rest} h := by
    unfold bindRun at h
    split at h
    next => simp at h
    next a middle misses hp =>
      have := p.suffix_of_result (s := s) (by rw [hp])
      exact ((f a).suffix_of_result h).trans this
  suffix_of_miss {s m} h := by
    unfold bindRun at h
    split at h
    next misses hp => exact p.suffix_of_miss (s := s) (by rw [hp]; exact h)
    next a middle misses hp =>
      rcases List.mem_append.mp h with h | h
      · exact p.suffix_of_miss (s := s) (by rw [hp]; exact h)
      · have := p.suffix_of_result (s := s) (by rw [hp])
        exact ((f a).suffix_of_miss h).trans this

def orElseRun (p : Rule α) (q : Unit → Rule α) (s : List Char) : Reading α :=
  match p.run s with
  | ⟨some found, misses⟩ => ⟨some found, misses⟩
  | ⟨none, misses⟩ =>
    let second := (q ()).run s
    ⟨second.result, misses ++ second.misses⟩

/-- Reads `q` from the same place if `p` gives no value. -/
protected def orElse (p : Rule α) (q : Unit → Rule α) : Rule α where
  run := p.orElseRun q
  suffix_of_result {s a rest} h := by
    unfold orElseRun at h
    split at h
    next found misses hp => exact p.suffix_of_result (s := s) (by rw [hp]; exact h)
    next misses hp => exact (q ()).suffix_of_result h
  suffix_of_miss {s m} h := by
    unfold orElseRun at h
    split at h
    next found misses hp => exact p.suffix_of_miss (s := s) (by rw [hp]; exact h)
    next misses hp =>
      rcases List.mem_append.mp h with h | h
      · exact p.suffix_of_miss (s := s) (by rw [hp]; exact h)
      · exact (q ()).suffix_of_miss h

instance : Monad Rule where
  pure := Rule.pure
  bind := Rule.bind

instance : Alternative Rule where
  failure := never
  orElse := Rule.orElse

theorem run_pure (a : α) (s : List Char) : (pure a : Rule α).run s = ⟨some (a, s), []⟩ := rfl

theorem run_bind (p : Rule α) (f : α → Rule β) (s : List Char) :
    (p >>= f).run s = p.bindRun f s := rfl

theorem run_orElse (p q : Rule α) (s : List Char) :
    (p <|> q).run s = p.orElseRun (fun _ => q) s := rfl

/-- Requires `p`: names what is missing if it gives no value. -/
def orMiss (p : Rule α) (expected : Expectation) : Rule α := p <|> miss expected

/-- Reads `p` if it is there. -/
def option (p : Rule α) : Rule (Option α) := (some <$> p) <|> pure none

/-- Reads `p` if it is there and tells whether it was. -/
def present (p : Rule α) : Rule Bool := (p *> pure true) <|> pure false

/-- Tells whether `p` comes next, and reads nothing. -/
def ahead (p : Rule α) : Rule Bool where
  run s := ⟨some ((p.run s).result.isSome, s), (p.run s).misses⟩
  suffix_of_result h := by cases h; exact List.suffix_refl _
  suffix_of_miss h := p.suffix_of_miss h

/-- Reads `yes` behind `p` if `p` is there, and otherwise `no` from the same place. -/
def ifPresent (p : Rule α) (yes no : Rule β) : Rule β :=
  present p >>= fun found => if found then yes else no

/-- Reads `yes` if `p` comes next and `no` if not, either from the same place. -/
def ifAhead (p : Rule α) (yes no : Rule β) : Rule β :=
  ahead p >>= fun found => if found then yes else no

/-- The text that `p` reads, from its first token on. -/
def source (p : Rule α) : Rule (List Char) where
  run s :=
    let start := Scan.skipTrivia s
    let reading := p.run start
    ⟨reading.result.map fun (_, rest) => (start.take (start.length - rest.length), rest),
      reading.misses⟩
  suffix_of_result {s a rest} h := by
    obtain ⟨⟨b, rest⟩, hp, he⟩ := Option.map_eq_some_iff.mp h
    cases he
    exact (p.suffix_of_result hp).trans (Scan.skipTrivia_suffix s)
  suffix_of_miss {s m} h := (p.suffix_of_miss h).trans (Scan.skipTrivia_suffix s)

/-- The first of several rules that gives a value. -/
def firstOf (rules : List (Rule α)) : Rule α := rules.foldr (· <|> ·) never

/-! ## Progress -/

/-- Whenever the rule gives a value it has read something. -/
def Consumes (p : Rule α) : Prop :=
  ∀ s a rest, (p.run s).result = some (a, rest) → rest.length < s.length

/-- What one round of a repetition comes to. -/
inductive Round (σ β : Type) where
  | again (state : σ)
  | finish (value : β)

/-- Whenever the rule asks for another round it has read something. -/
def Advances (p : Rule (Round σ β)) : Prop :=
  ∀ s x rest, (p.run s).result = some (.again x, rest) → rest.length < s.length

theorem Consumes.advances {p : Rule (Round σ β)} (h : p.Consumes) : p.Advances :=
  fun _ _ _ hr => h _ _ _ hr

theorem advances_finish (b : β) : (pure (.finish b) : Rule (Round σ β)).Advances := by
  intro s x rest h
  cases h

theorem bind_result {p : Rule α} {f : α → Rule β} {s rest : List Char} {b : β}
    (h : ((p >>= f).run s).result = some (b, rest)) :
    ∃ a middle, (p.run s).result = some (a, middle) ∧
      ((f a).run middle).result = some (b, rest) := by
  rw [run_bind, bindRun] at h
  split at h
  next => simp at h
  next a middle misses hp => exact ⟨a, middle, by rw [hp], h⟩

theorem orElse_result {p q : Rule α} {s rest : List Char} {a : α}
    (h : ((p <|> q).run s).result = some (a, rest)) :
    (p.run s).result = some (a, rest) ∨ (q.run s).result = some (a, rest) := by
  rw [run_orElse, orElseRun] at h
  split at h
  next found misses hp => exact .inl (by rw [hp]; exact h)
  next => exact .inr h

theorem Consumes.bind {p : Rule α} {f : α → Rule β} (h : p.Consumes) : (p >>= f).Consumes := by
  intro s b rest hr
  obtain ⟨a, middle, hp, hf⟩ := bind_result hr
  exact Nat.lt_of_le_of_lt ((f a).suffix_of_result hf).length_le (h _ _ _ hp)

theorem consumes_bind_right {p : Rule α} {f : α → Rule β} (h : ∀ a, (f a).Consumes) :
    (p >>= f).Consumes := by
  intro s b rest hr
  obtain ⟨a, middle, hp, hf⟩ := bind_result hr
  exact Nat.lt_of_lt_of_le (h a _ _ _ hf) (p.suffix_of_result hp).length_le

theorem Consumes.map {p : Rule α} (f : α → β) (h : p.Consumes) : (f <$> p).Consumes :=
  Consumes.bind h

theorem Consumes.seqLeft {p : Rule α} {q : Rule β} (h : p.Consumes) : (p <* q).Consumes :=
  Consumes.bind h

theorem Consumes.seqRight {p : Rule α} {q : Rule β} (h : p.Consumes) : (p *> q).Consumes :=
  Consumes.bind h

theorem Consumes.orElse {p q : Rule α} (hp : p.Consumes) (hq : q.Consumes) :
    (p <|> q).Consumes := by
  intro s a rest h
  rcases orElse_result h with h | h
  · exact hp _ _ _ h
  · exact hq _ _ _ h

theorem consumes_never : (never : Rule α).Consumes := by
  intro s a rest h
  cases h

theorem consumes_miss (expected : Expectation) : (miss expected : Rule α).Consumes := by
  intro s a rest h
  cases h

theorem consumes_firstOf {rules : List (Rule α)} (h : ∀ p ∈ rules, p.Consumes) :
    (firstOf rules).Consumes := by
  induction rules with
  | nil => exact consumes_never
  | cons p rules ih =>
    exact Consumes.orElse (h p (List.mem_cons_self ..))
      (ih fun q hq => h q (List.mem_cons_of_mem _ hq))

theorem Advances.orElse {p q : Rule (Round σ β)} (hp : p.Advances) (hq : q.Advances) :
    (p <|> q).Advances := by
  intro s x rest h
  rcases orElse_result h with h | h
  · exact hp _ _ _ h
  · exact hq _ _ _ h

theorem advances_ifAhead {p : Rule α} {yes no : Rule (Round σ β)} (hy : yes.Advances)
    (hn : no.Advances) : (ifAhead p yes no).Advances := by
  intro s x rest hr
  obtain ⟨found, middle, hp, hf⟩ := bind_result hr
  cases hp
  cases hs : (p.run s).result.isSome
  · exact hn _ _ _ (by simpa [hs] using hf)
  · exact hy _ _ _ (by simpa [hs] using hf)

theorem advances_bind {p : Rule α} {f : α → Rule (Round σ β)} (h : ∀ a, (f a).Advances) :
    (p >>= f).Advances := by
  intro s x rest hr
  obtain ⟨a, middle, hp, hf⟩ := bind_result hr
  exact Nat.lt_of_lt_of_le (h a _ _ _ hf) (p.suffix_of_result hp).length_le

theorem present_result {p : Rule α} {s rest : List Char}
    (h : (p.present.run s).result = some (true, rest)) :
    ∃ a, (p.run s).result = some (a, rest) := by
  rcases orElse_result h with h | h
  · obtain ⟨a, middle, hp, hm⟩ := bind_result h
    cases hm
    exact ⟨a, hp⟩
  · cases h

theorem advances_ifPresent {p : Rule α} (h : p.Consumes) (q : Rule (Round σ β)) (b : β) :
    (ifPresent p q (pure (.finish b))).Advances := by
  intro s x rest hr
  obtain ⟨found, middle, hp, hq⟩ := bind_result hr
  cases found
  · exact absurd hq (by simp [run_pure])
  · obtain ⟨a, ha⟩ := present_result hp
    exact Nat.lt_of_le_of_lt (q.suffix_of_result hq).length_le (h _ _ _ ha)

/-! ## Repetition -/

def loopRun (round : σ → Rule (Round σ β)) (advances : ∀ x, (round x).Advances) (x : σ)
    (s : List Char) : Reading β :=
  match h : (round x).run s with
  | ⟨none, misses⟩ => ⟨none, misses⟩
  | ⟨some (.finish b, rest), misses⟩ => ⟨some (b, rest), misses⟩
  | ⟨some (.again y, rest), misses⟩ =>
    have : rest.length < s.length := advances x _ _ _ (by rw [h])
    let next := loopRun round advances y rest
    ⟨next.result, misses ++ next.misses⟩
termination_by s.length

theorem loopRun_suffix_of_result (round : σ → Rule (Round σ β))
    (advances : ∀ x, (round x).Advances) (x : σ) (s : List Char) {b : β} {rest : List Char}
    (h : (loopRun round advances x s).result = some (b, rest)) : rest <:+ s := by
  fun_induction loopRun round advances x s with
  | case1 => simp at h
  | case2 x s b rest misses hr =>
    cases h
    exact (round x).suffix_of_result (s := s) (by rw [hr])
  | case3 x s y middle misses hr _ next ih =>
    exact (ih h).trans ((round x).suffix_of_result (s := s) (by rw [hr]))

theorem loopRun_suffix_of_miss (round : σ → Rule (Round σ β))
    (advances : ∀ x, (round x).Advances) (x : σ) (s : List Char) {m : Miss}
    (h : m ∈ (loopRun round advances x s).misses) : m.rest <:+ s := by
  fun_induction loopRun round advances x s with
  | case1 x s misses hr => exact (round x).suffix_of_miss (s := s) (by rw [hr]; exact h)
  | case2 x s b rest misses hr => exact (round x).suffix_of_miss (s := s) (by rw [hr]; exact h)
  | case3 x s y middle misses hr _ next ih =>
    rcases List.mem_append.mp h with h | h
    · exact (round x).suffix_of_miss (s := s) (by rw [hr]; exact h)
    · exact (ih h).trans ((round x).suffix_of_result (s := s) (by rw [hr]))

/-- Repeats a round, each from the state the last one gave, until one finishes or gives no value. -/
def loop (round : σ → Rule (Round σ β)) (advances : ∀ x, (round x).Advances) (x : σ) : Rule β where
  run := loopRun round advances x
  suffix_of_result h := loopRun_suffix_of_result round advances x _ h
  suffix_of_miss h := loopRun_suffix_of_miss round advances x _ h

/-- Repeats `step` for as long as it gives a value. -/
def iterate (step : σ → Rule σ) (consumes : ∀ x, (step x).Consumes) (x : σ) : Rule σ :=
  loop (fun x => (.again <$> step x) <|> pure (.finish x))
    (fun x => ((consumes x).map _).advances.orElse (advances_finish x)) x

/-- One or more items, a separator before each but the first. Behind a separator an item is
required. -/
def separated (item : Rule α) (separator : Rule Unit) (consumes : separator.Consumes) :
    Rule (List α) := do
  let first ← item
  loop
    (fun items => ifPresent separator
      ((fun a => .again (items ++ [a])) <$> item)
      (pure (.finish items)))
    (fun _ => advances_ifPresent consumes _ _)
    [first]

end Rule

end TableSchema
