import Mathlib.Logic.Relation
import Mathlib.Order.Bounds.Basic
import TableSchema.Proofs.Checked.Token
import TableSchema.Proofs.Grammar.Lexeme

/-!
# Groups that are kept and groups that are skipped

Two loops pass over groups in parentheses. One skips a group and ends behind it, the other keeps it
in a value and goes on there. `groupEnd?` says by counting where the group is closed that opens a
text. Up to that offset both loops go through the same states, one for each character outside
literals and one for each literal.
-/

namespace TableSchema

open Rule Scan

-- ---------------------------------------------------------------------------
-- Units
-- ---------------------------------------------------------------------------

namespace Scan

/-- A text cut into literals, each taken whole, and the single characters outside them. A literal
that is not closed runs to the end. -/
def units : List Char → List (List Char)
  | [] => []
  | c :: rest =>
    if isQuote c then
      match _h : readLiteral c (escapesIn c) rest with
      | some (body, after) => (c :: (body ++ [c])) :: units after
      | none => [c :: rest]
    else [c] :: units rest
termination_by s => s.length
decreasing_by
  · simp [readLiteral_eq _h]; omega
  · simp

theorem flatten_units (s : List Char) : (units s).flatten = s := by
  fun_induction units s with
  | case1 => rfl
  | case2 c rest _ body after h ih => simp [ih, readLiteral_eq h]
  | case3 => simp
  | case4 c rest _ ih => simp [ih]

/-- How many more groups some units open than they close. A parenthesis in a literal is no unit. -/
def level (us : List (List Char)) : Int := us.count ['('] - us.count [')']

theorem level_append (us vs : List (List Char)) : level (us ++ vs) = level us + level vs := by
  simp only [level, List.count_append]
  omega

theorem level_take_add_one {us : List (List Char)} (h : us[k]? = some u) :
    level (us.take (k + 1)) = level (us.take k) + level [u] := by
  rw [List.take_add_one, h, level_append]
  rfl

theorem level_singleton_of_head? (ho : c ≠ '(') (hc : c ≠ ')') (h : u.head? = some c) :
    level [u] = 0 := by
  have hne (d : Char) (hd : c ≠ d) : (u == [d]) = false := by
    rw [beq_eq_false_iff_ne]
    rintro rfl
    exact hd (Option.some.inj h).symm
  simp [level, List.count_singleton, hne _ ho, hne _ hc]

theorem level_singleton_cases (u : List Char) : 0 ≤ level [u] ∨ level [u] = -1 ∧ u = [')'] := by
  by_cases hu : u = [')']
  · subst hu
    exact .inr ⟨rfl, rfl⟩
  · have : [u].count [')'] = 0 := by simp [hu]
    exact .inl (by simp [level, this])

/-- The unit `k` is a closing parenthesis behind which no group is open any more. -/
def ClosesAll (us : List (List Char)) (k : Nat) : Prop :=
  us[k]? = some [')'] ∧ level (us.take (k + 1)) = 0

instance (us : List (List Char)) (k : Nat) : Decidable (ClosesAll us k) := by
  unfold ClosesAll; infer_instance

/-- The first unit that closes all groups. -/
def closing? (us : List (List Char)) : Option Nat :=
  (List.range us.length).find? fun k => ClosesAll us k

theorem closing?_eq_some_iff {us : List (List Char)} :
    closing? us = some k ↔ k < us.length ∧ ClosesAll us k ∧ ∀ j < k, ¬ClosesAll us j := by
  simp [closing?, List.find?_range_eq_some, and_left_comm]

theorem closing?_eq_none_iff {us : List (List Char)} :
    closing? us = none ↔ ∀ k < us.length, ¬ClosesAll us k := by
  simp [closing?]

/-- Until all groups are closed, the one that opens the text is open. -/
theorem level_pos {us : List (List Char)} (hopen : us[0]? = some ['(']) (h0 : 0 < k)
    (hk : k ≤ us.length) (h : ∀ j < k, ¬ClosesAll us j) : 0 < level (us.take k) := by
  induction k with
  | zero => cases h0
  | succ k ih =>
    have hu : us[k]? = some us[k] := List.getElem?_eq_getElem hk
    have hstep := level_take_add_one hu
    rcases Nat.eq_zero_or_pos k with rfl | hpos
    · rw [hstep, Option.some.inj (hu.symm.trans hopen)]
      exact Int.zero_lt_one
    have hbefore := ih hpos (Nat.le_of_succ_le hk) fun j hj => h j (Nat.lt_succ_of_lt hj)
    rcases level_singleton_cases us[k] with hge | ⟨hlevel, hclose⟩
    · omega
    · -- A step down to zero would be one that closes all groups.
      have hne : level (us.take (k + 1)) ≠ 0 := fun hzero =>
        h k (Nat.lt_succ_self k) ⟨by rw [hu, hclose], hzero⟩
      omega

/-- How many units belong to the group that opens the text. -/
def groupUnits (us : List (List Char)) : Nat := (closing? us).elim us.length (· + 1)

theorem groupUnits_of_none {us : List (List Char)} (h : closing? us = none) :
    groupUnits us = us.length := by
  rw [groupUnits, h]
  rfl

theorem groupUnits_of_some {us : List (List Char)} (h : closing? us = some k) :
    groupUnits us = k + 1 := by
  rw [groupUnits, h]
  rfl

theorem groupUnits_le (us : List (List Char)) : groupUnits us ≤ us.length := by
  cases h : closing? us with
  | none => exact (groupUnits_of_none h).le
  | some k =>
    rw [groupUnits_of_some h]
    exact (closing?_eq_some_iff.mp h).1

theorem not_closesAll {us : List (List Char)} (h : k + 1 < groupUnits us) : ¬ClosesAll us k := by
  cases hc : closing? us with
  | none =>
    rw [groupUnits_of_none hc] at h
    exact closing?_eq_none_iff.mp hc k (Nat.lt_of_succ_lt h)
  | some last =>
    rw [groupUnits_of_some hc] at h
    exact (closing?_eq_some_iff.mp hc).2.2 k (Nat.lt_of_succ_lt_succ h)

theorem endsBare_open (stopAtCast : Bool) (rest : List Char) :
    endsBare stopAtCast ('(' :: rest) = false := by
  have hb : Unicode.isBlank '(' = false := by decide
  simp [endsBare, hb]

/-- A value goes on behind a group in it as if it began there. -/
theorem pastBare_pastGroup (stopAtCast : Bool) (depth : Nat) (s : List Char) :
    pastBare stopAtCast 0 (pastGroup depth s) = pastBare stopAtCast (depth + 1) s := by
  fun_induction pastGroup depth s with
  | case1 => rw [pastBare, pastBare]
  | case2 depth rest ih => rw [ih, pastBare_cons]; simp
  | case3 rest => rw [pastBare_cons stopAtCast 1]; simp
  | case4 rest inner _ ih => rw [ih, pastBare_cons stopAtCast (inner + 1 + 1)]; simp
  | case5 depth c rest ho hc hq ih =>
    rw [ih, pastBare_cons stopAtCast (depth + 1) c]
    simp [ho, hc, hq]
  | case6 depth c rest ho hc hq ih =>
    rw [ih, pastBare_cons stopAtCast (depth + 1) c]
    simp [ho, hc, hq]

end Scan

namespace Checked

/-- `u` is the first unit of a text that begins with `c`. -/
structure FirstUnit (c : Char) (rest u : List Char) : Prop where
  head : u.head? = some c
  literal : isQuote c = true →
    bytes u = (literalLength c (escapesIn c) (c :: rest)).getD (bytes (c :: rest))
  character : isQuote c = false → u = [c]

theorem FirstUnit.bytes_eq (h : FirstUnit c rest u) :
    bytes u = if isQuote c then (literalLength c (escapesIn c) (c :: rest)).getD (bytes (c :: rest))
      else c.utf8Size := by
  split
  next hq => exact h.literal hq
  next hq => rw [h.character (by simpa using hq), bytes_cons, bytes_nil, Nat.add_zero]

theorem units_cons (c : Char) (rest : List Char) :
    ∃ u r, units (c :: rest) = u :: units r ∧ FirstUnit c rest u := by
  rw [units]
  cases hq : isQuote c with
  | false => exact ⟨_, _, rfl, rfl, by simp [hq], fun _ => rfl⟩
  | true =>
    simp only [if_true]
    split
    next body after hr =>
      exact ⟨_, after, rfl, rfl, by simp [literalLength_eq, hr, Nat.add_assoc], by simp [hq]⟩
    next hr =>
      exact ⟨_, [], by rw [units], rfl, by simp [literalLength_eq, hr], by simp [hq]⟩

theorem units_drop (s : List Char) (k : Nat) :
    units ((units s).drop k).flatten = (units s).drop k := by
  induction k generalizing s with
  | zero => rw [List.drop_zero, flatten_units]
  | succ k ih =>
    cases s with
    | nil => simp [units]
    | cons c rest =>
      obtain ⟨u, r, hu, -⟩ := units_cons c rest
      rw [hu, List.drop_succ_cons]
      exact ih r

-- ---------------------------------------------------------------------------
-- Rounds
-- ---------------------------------------------------------------------------

section

variable {text rest u : List Char} {c : Char} {depth : Nat}

theorem add_level_close (inner : Nat) : ((inner.succ : Nat) : Int) + level [[')']] = inner := by
  change ((inner + 1 : Nat) : Int) + -1 = inner
  omega

/-- In a group a value goes on with the next unit. -/
theorem bareRound_unit (stopAtCast : Bool) (h : At text i (c :: rest)) (hu : FirstUnit c rest u)
    (hd : depth = 0 → c = '(') :
    bareRound stopAtCast text (depth, i) =
      .ok (.again ((depth + level [u]).toNat, i + bytes u)) := by
  have hends : ¬(decide (depth = 0) && endsBare stopAtCast (c :: rest)) = true := by
    intro he
    rw [Bool.and_eq_true, decide_eq_true_iff] at he
    rw [hd he.1, endsBare_open] at he
    cases he.2
  rw [bareRound_cons stopAtCast h, if_neg hends]
  split
  next ho =>
    subst ho
    rw [hu.character rfl]
    rfl
  next ho =>
    split
    next hc =>
      subst hc
      obtain ⟨inner, rfl⟩ := Nat.exists_eq_succ_of_ne_zero fun h0 => ho (hd h0)
      rw [hu.character rfl, add_level_close, Int.toNat_natCast]
      rfl
    next hc =>
      have hl : level [u] = 0 := level_singleton_of_head? ho hc hu.head
      rw [hl, Int.add_zero, Int.toNat_natCast, hu.bytes_eq]
      split <;> rfl

/-- A group that is skipped goes on in the same way, and ends where it is closed. -/
theorem groupRound_unit (h : At text i (c :: rest)) (hu : FirstUnit c rest u)
    (hd : depth = 0 → c = '(') :
    groupRound text (depth, i) =
      .ok (if u = [')'] ∧ depth + level [u] = 0 then .finish (i + bytes u)
        else .again ((depth + level [u]).toNat, i + bytes u)) := by
  rw [groupRound_cons h]
  split
  next ho =>
    subst ho
    rw [hu.character rfl]
    rfl
  next ho =>
    split
    next hc =>
      subst hc
      obtain ⟨inner, rfl⟩ := Nat.exists_eq_succ_of_ne_zero fun h0 => ho (hd h0)
      rw [hu.character rfl, add_level_close, Int.toNat_natCast]
      cases inner <;> rfl
    next hc =>
      have hl : level [u] = 0 := level_singleton_of_head? ho hc hu.head
      have hne : u ≠ [')'] := by
        rintro rfl
        exact hc (Option.some.inj hu.head).symm
      rw [hl, Int.add_zero, Int.toNat_natCast, if_neg (c := u = [')'] ∧ _) fun h => hne h.1,
        hu.bytes_eq]
      split <;> rfl

end

-- ---------------------------------------------------------------------------
-- Loops
-- ---------------------------------------------------------------------------

/-- A loop comes from one state to another. -/
def Visits (round : σ → Except Fault (Round σ β)) : σ → σ → Prop :=
  Relation.ReflTransGen fun x y => round x = .ok (.again y)

section

variable {round : σ → Except Fault (Round σ β)} {x y : σ} {k n : Nat}

theorem visits_state (state : Nat → σ)
    (h : ∀ k < n, round (state k) = .ok (.again (state (k + 1)))) (hk : k ≤ n) :
    Visits round (state 0) (state k) := by
  induction k with
  | zero => exact .refl
  | succ k ih => exact .tail (ih (Nat.le_of_succ_le hk)) (h k hk)

/-- A loop that goes from state to state comes to no other ones before the last of them. -/
theorem Visits.state_or (state : Nat → σ)
    (h : ∀ k < n, round (state k) = .ok (.again (state (k + 1))))
    (hx : Visits round (state 0) x) : (∃ k < n, x = state k) ∨ Visits round (state n) x := by
  induction n with
  | zero => exact .inr hx
  | succ n ih =>
    rcases ih fun k hk => h k (Nat.lt_succ_of_lt hk) with ⟨k, hk, rfl⟩ | hx
    · exact .inl ⟨k, Nat.lt_succ_of_lt hk, rfl⟩
    rcases hx.cases_head with rfl | ⟨y, hy, hx⟩
    · exact .inl ⟨n, Nat.lt_succ_self n, rfl⟩
    · rw [h n (Nat.lt_succ_self n)] at hy
      cases hy
      exact .inr hx

theorem Visits.eq_of_finish (hx : round x = .ok (.finish b)) (h : Visits round x y) : y = x := by
  rcases h.cases_head with rfl | ⟨z, hz, -⟩
  · rfl
  · rw [hx] at hz
    cases hz

/-- A loop without a fault moves on with every state it comes to. -/
theorem Visits.loop_eq {place : σ → Nat} {limit : Nat} (h : Visits round x y)
    (hx : loop place limit round x = .ok b) :
    place x ≤ place y ∧ loop place limit round y = .ok b := by
  induction h with
  | refl => exact ⟨Nat.le_refl _, hx⟩
  | tail _ hround ih =>
    obtain ⟨hle, hy⟩ := ih
    rw [loop, hround] at hy
    dsimp only at hy
    split at hy
    next => cases hy
    next hlt =>
      split at hy
      next => cases hy
      next => exact ⟨Nat.le_trans hle (Nat.le_of_not_le hlt), hy⟩

end

-- ---------------------------------------------------------------------------
-- States
-- ---------------------------------------------------------------------------

/-- The number of open groups and the offset behind the first `k` units of a text. -/
def stateAt (text : List Char) (k : Nat) : Nat × Nat :=
  ((level ((units text).take k)).toNat, bytes ((units text).take k).flatten)

section

variable {text : List Char} {k : Nat}

theorem at_stateAt (text : List Char) (k : Nat) :
    At text (stateAt text k).2 ((units text).drop k).flatten :=
  ⟨_, by rw [← List.flatten_append, List.take_append_drop, flatten_units], rfl⟩

theorem exists_firstUnit (hk : k < (units text).length) :
    ∃ c rest u, At text (stateAt text k).2 (c :: rest) ∧ FirstUnit c rest u ∧
      (units text)[k]? = some u := by
  have hat := at_stateAt text k
  have hdrop := units_drop text k
  cases hr : ((units text).drop k).flatten with
  | nil =>
    rw [hr, units, eq_comm, List.drop_eq_nil_iff] at hdrop
    omega
  | cons c rest =>
    obtain ⟨u, r, hu, hfirst⟩ := units_cons c rest
    rw [hr, hu] at hdrop
    refine ⟨c, rest, u, hr ▸ hat, hfirst, ?_⟩
    rw [← List.head?_drop, ← hdrop]
    rfl

theorem stateAt_offset (hu : (units text)[k]? = some u) :
    (stateAt text (k + 1)).2 = (stateAt text k).2 + bytes u := by
  simp only [stateAt]
  rw [List.take_add_one, hu]
  simp

theorem stateAt_add_one (hu : (units text)[k]? = some u)
    (hl : 0 ≤ level ((units text).take k)) :
    stateAt text (k + 1) =
      (((stateAt text k).1 + level [u]).toNat, (stateAt text k).2 + bytes u) := by
  rw [Prod.ext_iff, stateAt_offset hu]
  simp only [stateAt, level_take_add_one hu, Int.toNat_of_nonneg hl, and_self]

theorem stateAt_lt (hk : k < (units text).length) :
    (stateAt text k).2 < (stateAt text (k + 1)).2 := by
  obtain ⟨c, rest, u, -, hfirst, hu⟩ := exists_firstUnit hk
  have hne : u ≠ [] := by
    rintro rfl
    cases hfirst.head
  rw [stateAt_offset hu]
  exact Nat.lt_add_of_pos_right (bytes_pos hne)

theorem at_end (text : List Char) : At text (stateAt text (units text).length).2 [] := by
  have := at_stateAt text (units text).length
  rwa [List.drop_length] at this

-- ---------------------------------------------------------------------------
-- From the opening parenthesis to the closing one
-- ---------------------------------------------------------------------------

variable (hopen : (units text)[0]? = some ['('])

include hopen

theorem stateAt_depth_pos (h0 : 0 < k) (hk : k < groupUnits (units text)) :
    0 < (stateAt text k).1 := by
  have := level_pos hopen h0 (Nat.le_trans (Nat.le_of_lt hk) (groupUnits_le _))
    fun j hj => not_closesAll (Nat.lt_of_le_of_lt hj hk)
  simp only [stateAt]
  omega

/-- The next unit of the group. Only the parenthesis that opens it stands outside all groups. -/
theorem exists_unit_of_lt (hk : k < groupUnits (units text)) :
    ∃ c rest u, At text (stateAt text k).2 (c :: rest) ∧ FirstUnit c rest u ∧
      (units text)[k]? = some u ∧ ((stateAt text k).1 = 0 → c = '(') ∧
      ((stateAt text k).1 : Int) = level ((units text).take k) := by
  obtain ⟨c, rest, u, hat, hfirst, hu⟩ :=
    exists_firstUnit (Nat.lt_of_lt_of_le hk (groupUnits_le _))
  refine ⟨c, rest, u, hat, hfirst, hu, ?_⟩
  rcases Nat.eq_zero_or_pos k with rfl | h0
  · rw [hopen] at hu
    cases hu
    exact ⟨fun _ => (Option.some.inj hfirst.head).symm, rfl⟩
  · have hpos := stateAt_depth_pos hopen h0 hk
    refine ⟨fun hzero => absurd hzero hpos.ne', ?_⟩
    simp only [stateAt] at hpos ⊢
    omega

theorem bareRound_stateAt (stopAtCast : Bool) (hk : k < groupUnits (units text)) :
    bareRound stopAtCast text (stateAt text k) = .ok (.again (stateAt text (k + 1))) := by
  obtain ⟨c, rest, u, hat, hfirst, hu, hd, hdepth⟩ := exists_unit_of_lt hopen hk
  rw [stateAt_add_one hu (hdepth ▸ Int.natCast_nonneg _)]
  exact bareRound_unit stopAtCast hat hfirst hd

theorem groupRound_stateAt (hk : k < groupUnits (units text)) :
    groupRound text (stateAt text k) =
      .ok (if ClosesAll (units text) k then .finish (stateAt text (k + 1)).2
        else .again (stateAt text (k + 1))) := by
  obtain ⟨c, rest, u, hat, hfirst, hu, hd, hdepth⟩ := exists_unit_of_lt hopen hk
  have hcloses : ClosesAll (units text) k ↔ u = [')'] ∧ (stateAt text k).1 + level [u] = 0 := by
    rw [ClosesAll, hu, level_take_add_one hu, hdepth, Option.some.injEq]
  rw [stateAt_add_one hu (hdepth ▸ Int.natCast_nonneg _), if_congr hcloses rfl rfl]
  exact groupRound_unit hat hfirst hd

theorem visits_bare (stopAtCast : Bool) (hk : k ≤ groupUnits (units text)) :
    Visits (bareRound stopAtCast text) (0, 0) (stateAt text k) :=
  visits_state (stateAt text) (fun _ => bareRound_stateAt hopen stopAtCast) hk

theorem visits_bare_iff (stopAtCast : Bool) {x : Nat × Nat}
    (hx : x.2 < (stateAt text (groupUnits (units text))).2) :
    Visits (bareRound stopAtCast text) (0, 0) x ↔
      ∃ k < groupUnits (units text), x = stateAt text k := by
  constructor
  · intro h
    have hsteps := fun j => bareRound_stateAt (k := j) hopen stopAtCast
    rcases Visits.state_or (stateAt text) hsteps h with hk | hbeyond
    · exact hk
    obtain ⟨n, hn, -⟩ := bareLoop_eq stopAtCast _ (at_stateAt text (groupUnits (units text)))
    exact absurd (hbeyond.loop_eq hn).1 (Nat.not_le.mpr hx)
  · rintro ⟨k, hk, rfl⟩
    exact visits_bare hopen stopAtCast (Nat.le_of_lt hk)

/-- The loop that skips the group ends behind its last unit: from the state before the parenthesis
that closes the group, or from the one at the end of the text. -/
theorem exists_groupRound_finish :
    ∃ last, (∀ k < last, groupRound text (stateAt text k) = .ok (.again (stateAt text (k + 1)))) ∧
      groupRound text (stateAt text last) =
        .ok (.finish (stateAt text (groupUnits (units text))).2) ∧
      last ≤ groupUnits (units text) ∧ groupUnits (units text) ≤ last + 1 := by
  have hagain {k : Nat} (hk : k < groupUnits (units text)) (hc : ¬ClosesAll (units text) k) :
      groupRound text (stateAt text k) = .ok (.again (stateAt text (k + 1))) := by
    rw [groupRound_stateAt hopen hk, if_neg hc]
  cases hc : closing? (units text) with
  | none =>
    have hunits := groupUnits_of_none hc
    refine ⟨groupUnits (units text), fun k hk => hagain hk ?_, ?_, Nat.le_refl _, Nat.le_succ _⟩
    · exact closing?_eq_none_iff.mp hc k (hunits ▸ hk)
    · rw [hunits]
      exact groupRound_nil (at_end text)
  | some last =>
    have hunits := groupUnits_of_some hc
    have hlt : last < groupUnits (units text) := hunits ▸ Nat.lt_succ_self last
    refine ⟨last, fun k hk => hagain (Nat.lt_trans hk hlt) ?_, ?_, Nat.le_of_lt hlt, hunits.le⟩
    · exact (closing?_eq_some_iff.mp hc).2.2 k hk
    · rw [groupRound_stateAt hopen hlt, if_pos (closing?_eq_some_iff.mp hc).2.1, hunits]

theorem groupLength_stateAt (hn : groupLength text = .ok n) :
    n = (stateAt text (groupUnits (units text))).2 := by
  obtain ⟨last, hsteps, hfinish, -, -⟩ := exists_groupRound_finish hopen
  have hlast := ((visits_state _ hsteps (Nat.le_refl last)).loop_eq hn).2
  rw [loop_finish hfinish] at hlast
  exact (Except.ok.inj hlast).symm

theorem visits_group_iff {x : Nat × Nat}
    (hx : x.2 < (stateAt text (groupUnits (units text))).2) :
    Visits (groupRound text) (0, 0) x ↔ ∃ k < groupUnits (units text), x = stateAt text k := by
  obtain ⟨last, hsteps, hfinish, hle, hge⟩ := exists_groupRound_finish hopen
  constructor
  · intro h
    rcases Visits.state_or (stateAt text) hsteps h with ⟨k, hk, rfl⟩ | hlast
    · exact ⟨k, Nat.lt_of_lt_of_le hk hle, rfl⟩
    · obtain rfl := hlast.eq_of_finish hfinish
      refine ⟨last, Nat.lt_of_le_of_ne hle ?_, rfl⟩
      rintro rfl
      exact Nat.lt_irrefl _ hx
  · rintro ⟨k, hk, rfl⟩
    exact visits_state _ hsteps (Nat.le_of_lt_succ (Nat.lt_of_lt_of_le hk hge))

/-- A value is outside all groups again where the first one is closed, and not before. -/
theorem isLeast_visits_bare (stopAtCast : Bool) (hk : closing? (units text) = some k) :
    IsLeast {i | 0 < i ∧ Visits (bareRound stopAtCast text) (0, 0) (0, i)}
      (stateAt text (k + 1)).2 := by
  have hunits := groupUnits_of_some hk
  obtain ⟨hlength, hcloses, -⟩ := closing?_eq_some_iff.mp hk
  have hzero : (stateAt text (k + 1)).1 = 0 := by rw [stateAt, hcloses.2]; rfl
  refine ⟨⟨Nat.lt_of_le_of_lt (Nat.zero_le _) (stateAt_lt hlength), ?_⟩, fun i hi => ?_⟩
  · have hvisits := visits_bare hopen stopAtCast hunits.ge
    rwa [← Prod.eta (stateAt text (k + 1)), hzero] at hvisits
  · by_contra hlt
    rw [← hunits] at hlt
    obtain ⟨j, hj, hstate⟩ :=
      (visits_bare_iff hopen stopAtCast (x := (0, i)) (Nat.lt_of_not_le hlt)).mp hi.2
    rcases Nat.eq_zero_or_pos j with rfl | h0
    · cases hstate
      exact Nat.lt_irrefl 0 hi.1
    · have := stateAt_depth_pos hopen h0 hj
      rw [← hstate] at this
      exact Nat.lt_irrefl 0 this

/-- In a group that is not closed a value never is outside all groups again. -/
theorem eq_zero_of_visits_bare (stopAtCast : Bool) (hc : closing? (units text) = none)
    (h : Visits (bareRound stopAtCast text) (0, 0) (0, i)) : i = 0 := by
  have hunits := groupUnits_of_none hc
  have hsteps := fun j => bareRound_stateAt (k := j) hopen stopAtCast
  obtain ⟨k, hk, hstate⟩ : ∃ k ≤ (units text).length, (0, i) = stateAt text k := by
    rcases Visits.state_or (stateAt text) hsteps h with ⟨k, hk, hstate⟩ | hlast
    · exact ⟨k, hunits ▸ Nat.le_of_lt hk, hstate⟩
    · rw [hunits] at hlast
      exact ⟨_, Nat.le_refl _, hlast.eq_of_finish (bareRound_nil stopAtCast (at_end text))⟩
  rcases Nat.eq_zero_or_pos k with rfl | h0
  · cases hstate
    rfl
  · have hpos := level_pos hopen h0 hk fun j hj =>
      closing?_eq_none_iff.mp hc j (Nat.lt_of_lt_of_le hj hk)
    have hdepth : (0 : Nat) = (level ((units text).take k)).toNat := congrArg Prod.fst hstate
    omega

end

-- ---------------------------------------------------------------------------
-- Both loops
-- ---------------------------------------------------------------------------

/-- The offset behind the parenthesis that closes the group at the start of a text: the first one
outside literals up to which as many groups are closed as were opened. -/
def groupEnd? (text : List Char) : Option Nat :=
  (closing? (units text)).map fun k => bytes ((units text).take (k + 1)).flatten

theorem getD_groupEnd? (text : List Char) :
    (groupEnd? text).getD (bytes text) = (stateAt text (groupUnits (units text))).2 := by
  cases hc : closing? (units text) with
  | none =>
    have hend := (at_end text).add_bytes
    rw [groupEnd?, groupUnits_of_none hc, hc]
    exact hend.symm
  | some k =>
    rw [groupEnd?, groupUnits_of_some hc, hc]
    rfl

theorem units_open (rest : List Char) : (units ('(' :: rest))[0]? = some ['('] := by
  obtain ⟨u, r, hu, hfirst⟩ := units_cons '(' rest
  rw [hu, hfirst.character rfl]
  rfl

theorem isLeast_visits_bare_iff (stopAtCast : Bool) (hopen : (units text)[0]? = some ['(']) :
    IsLeast {i | 0 < i ∧ Visits (bareRound stopAtCast text) (0, 0) (0, i)} i ↔
      groupEnd? text = some i := by
  rw [groupEnd?]
  cases hc : closing? (units text) with
  | none =>
    refine iff_of_false (fun h => ?_) nofun
    have := eq_zero_of_visits_bare hopen stopAtCast hc h.1.2
    exact Nat.lt_irrefl 0 (this ▸ h.1.1)
  | some k =>
    have hleast := isLeast_visits_bare hopen stopAtCast hc
    rw [Option.map_some, Option.some.injEq]
    exact ⟨hleast.unique, fun h => h ▸ hleast⟩

/-- A value that begins with a group goes on behind it as if it began there. -/
theorem read_bare_open (stopAtCast : Bool) (rest : List Char) :
    ∃ value, (bare stopAtCast).read ('(' :: rest) =
        some (String.ofList value, pastBare stopAtCast 0 (pastGroup 0 rest)) ∧
      '(' :: rest = value ++ pastBare stopAtCast 0 (pastGroup 0 rest) ∧
      bareLength stopAtCast ('(' :: rest) = .ok (bytes value) := by
  have hpast : pastBare stopAtCast 0 ('(' :: rest) = pastBare stopAtCast 0 (pastGroup 0 rest) := by
    rw [pastBare_pastGroup, pastBare_cons, endsBare_open]
    rfl
  obtain ⟨n, hn, value, htext, rfl⟩ := bareLength_eq stopAtCast ('(' :: rest)
  rw [hpast] at htext
  refine ⟨value, ?_, htext, hn⟩
  have hskip : skipTrivia ('(' :: rest) = '(' :: rest :=
    skipTrivia_of_beginsLexeme (by decide) rest
  rw [read_bare, hskip, endsBare_open, hpast, if_neg Bool.false_ne_true, take_length_sub htext]

/-- A group is kept in a value as far as it is skipped: to the parenthesis that closes it, literals
being taken whole, or to the end of the text. Up to there both loops have as many groups open, and
the value is outside all groups for the first time, and may end, where the group does. -/
theorem group_kept_as_skipped (stopAtCast : Bool) (rest : List Char) :
    let text := '(' :: rest
    ∃ n value,
      n = (groupEnd? text).getD (bytes text) ∧
      groupLength text = .ok n ∧ At text n (pastGroup 0 rest) ∧
      (bare stopAtCast).read text =
        some (String.ofList value, pastBare stopAtCast 0 (pastGroup 0 rest)) ∧
      text = value ++ pastBare stopAtCast 0 (pastGroup 0 rest) ∧
      bareLength stopAtCast text = .ok (bytes value) ∧ n ≤ bytes value ∧
      (∀ i, IsLeast {i | 0 < i ∧ Visits (bareRound stopAtCast text) (0, 0) (0, i)} i ↔
        groupEnd? text = some i) ∧
      ∀ x : Nat × Nat, x.2 < n →
        (Visits (bareRound stopAtCast text) (0, 0) x ↔ Visits (groupRound text) (0, 0) x) ∧
        (Visits (bareRound stopAtCast text) (0, 0) x →
          ∃ y, bareRound stopAtCast text x = .ok (.again y)) := by
  intro text
  have hopen : (units text)[0]? = some ['('] := units_open rest
  obtain ⟨n, hgroup, hat⟩ := groupLength_eq rest
  obtain ⟨value, hread, htext, hbare⟩ := read_bare_open stopAtCast rest
  have hn := groupLength_stateAt hopen hgroup
  refine ⟨n, value, ?_, hgroup, hat, hread, htext, hbare, ?_, fun i =>
    isLeast_visits_bare_iff stopAtCast hopen, fun x hx => ⟨?_, fun h => ?_⟩⟩
  · rw [getD_groupEnd?, hn]
  · have hlt := At.lt_iff ⟨value, htext, rfl⟩ hat
    have hle := (pastBare_suffix stopAtCast 0 (pastGroup 0 rest)).length_le
    omega
  · rw [hn] at hx
    rw [visits_bare_iff hopen stopAtCast hx, visits_group_iff hopen hx]
  · rw [hn] at hx
    obtain ⟨k, hk, rfl⟩ := (visits_bare_iff hopen stopAtCast hx).mp h
    exact ⟨_, bareRound_stateAt hopen stopAtCast hk⟩

example : groupEnd? "(a ')' (b)) :: t)".toList = some 11 := by decide +kernel

end Checked

end TableSchema
