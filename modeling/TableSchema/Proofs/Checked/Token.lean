import TableSchema.Proofs.Checked.Cursor

/-!
# Checked tokens

The rules of single tokens as steps of a cursor. `Sound text p step` says that a step never faults
from where the grammar may be, that it gives what the rule `p` gives, and that it leaves the cursor
where the rule ends, with what the rule missed recorded.
-/

namespace TableSchema.Checked

open Rule Scan

/-- A step of a cursor. It may move without giving a value; its caller then goes back. -/
abbrev Step (α : Type) := Cursor → Except Fault (Option α × Cursor)

def Sound (text : List Char) (p : Rule α) (step : Step α) : Prop :=
  ∀ ⦃c s misses⦄, c.Follows text s misses → ∃ c' r,
    step c = .ok ((p.read s).map Prod.fst, c') ∧ c'.Follows text r (misses ++ (p.run s).misses) ∧
      ∀ a rest, p.read s = some (a, rest) → rest = r

namespace Step

/-- A token that is matched as a whole. -/
def eat (text : List Char) (length : List Char → Option Nat) : Step Unit := fun c => do
  let c' ← c.skipTrivia text
  match length (← c'.rest text) with
  | some n => return (some (), ← c'.moveTo text (c'.pos + n))
  | none => return (none, ← c'.moveTo text c.pos)

/-- The length of a whole word in any ASCII case. A text that is too short or that would be cut
inside a character has no such word. -/
def keywordLength (word s : List Char) : Option Nat :=
  match sliceTo s (bytes word), sliceFrom s (bytes word) with
  | .ok head, .ok tail =>
    if head.map Char.toUpper = word ∧ startsWord tail = false then some (bytes word) else none
  | _, _ => none

def symbolLength (text s : List Char) : Option Nat :=
  if text.isPrefixOf s then some (bytes text) else none

def run1 (text : List Char) (accepts : Char → Bool) : Step (List Char) := fun c => do
  let c ← c.skipTrivia text
  let n := bytes ((← c.rest text).takeWhile accepts)
  if n = 0 then return (none, c)
  let c' ← c.moveTo text (c.pos + n)
  return (some (← slice text c.pos c'.pos), c')

def quotedName (text : List Char) : Step String := fun c => do
  let c ← c.skipTrivia text
  let rest ← c.rest text
  match rest with
  | [] => return (none, c)
  | quote :: _ =>
    if quote = '`' ∨ quote = '"' then
      match literalLength quote false rest with
      | none => return (none, c)
      | some n =>
        let c' ← c.moveTo text (c.pos + n)
        let body ← slice rest 1 (← difference n 1)
        return (some (String.ofList (undoubleQuotes quote body)), c')
    else return (none, c)

def literal (text : List Char) (quote : Char) : Step String := fun c => do
  let c ← c.skipTrivia text
  let rest ← c.rest text
  match rest with
  | [] => return (none, c)
  | x :: _ =>
    if x = quote then
      match literalLength quote true rest with
      | none => return (none, ← c.fail text .closingQuote)
      | some n =>
        let c' ← c.moveTo text (c.pos + n)
        let body ← slice rest quote.utf8Size (← difference n quote.utf8Size)
        return (some (String.ofList body), c')
    else return (none, c)

def bare (text : List Char) (stopAtCast : Bool) : Step String := fun c => do
  let c ← c.skipTrivia text
  let n ← bareLength stopAtCast (← c.rest text)
  if n = 0 then return (none, c)
  let c' ← c.moveTo text (c.pos + n)
  return (some (String.ofList (← slice text c.pos c'.pos)), c')

/-- Moves past one unit of text, if any is left. -/
def skipToken (text : List Char) (c : Cursor) : Except Fault Cursor := do
  let c ← c.skipTrivia text
  let rest ← c.rest text
  match rest with
  | [] => return c
  | x :: _ =>
    if isQuote x then
      c.moveTo text (c.pos + (literalLength x (escapesIn x) rest).getD (bytes rest))
    else if x = '(' then c.moveTo text (c.pos + (← groupLength rest))
    else if isWordChar x then c.moveTo text (c.pos + bytes (rest.takeWhile isWordChar))
    else c.moveTo text (c.pos + x.utf8Size)

def unclaimed (text : List Char) : Step Unit := fun c => do
  let c ← c.skipTrivia text
  match ← c.rest text with
  | [] => return (none, c)
  | x :: _ =>
    if x = ',' ∨ x = ')' then return (none, c) else return (some (), ← skipToken text c)

end Step

-- ---------------------------------------------------------------------------
-- Whole tokens
-- ---------------------------------------------------------------------------

section

variable {text s r rest : List Char} {c : Cursor} {misses : List Miss} {p : Rule α} {step : Step α}

theorem Sound.of_silent (hp : ∀ s, (p.run s).misses = [])
    (hsome : ∀ ⦃c s misses a rest⦄, c.Follows text s misses → p.read s = some (a, rest) →
      ∃ c', step c = .ok (some a, c') ∧ c'.Follows text rest misses)
    (hnone : ∀ ⦃c s misses⦄, c.Follows text s misses → p.read s = none →
      ∃ c' r, step c = .ok (none, c') ∧ c'.Follows text r misses) : Sound text p step := by
  intro c s misses h
  rw [hp, List.append_nil]
  cases hr : p.read s with
  | none =>
    obtain ⟨c', r, hc, hf⟩ := hnone h hr
    exact ⟨c', r, hc, hf, fun _ _ he => by cases he⟩
  | some x =>
    obtain ⟨c', hc, hf⟩ := hsome h hr
    exact ⟨c', x.2, hc, hf, fun a rest he => by cases he; rfl⟩

/-- A length by which a token is matched at the start of a text. -/
def Matches (length : List Char → Option Nat) (read : List Char → Option (Unit × List Char)) :
    Prop :=
  ∀ s, (length s = none ∧ read s = none) ∨
    ∃ u rest, s = u ++ rest ∧ length s = some (bytes u) ∧ read s = some ((), rest)

theorem Matches.sound {length : List Char → Option Nat} {p : Rule Unit}
    {read : List Char → Option (Unit × List Char)} (h : Matches length read)
    (hp : ∀ s, (p.run s).misses = []) (hread : ∀ s, p.read s = read (skipTrivia s)) :
    Sound text p (Step.eat text length) := by
  refine .of_silent hp ?_ ?_
  · intro c s misses a rest hf hr
    rw [hread] at hr
    obtain ⟨d, hd, hfd⟩ := hf.skipTrivia_eq
    rcases h (skipTrivia s) with ⟨-, hn⟩ | ⟨u, rest', hs, hl, hr'⟩
    · rw [hn] at hr
      cases hr
    · rw [hr'] at hr
      cases hr
      rw [hs] at hfd hl
      obtain ⟨c', hc, -, hf'⟩ := hfd.moveTo_eq hfd.place.advance
      refine ⟨c', ?_, hf'⟩
      simp only [Step.eat, hd, ok_bind, hfd.rest_eq, hl, hc]
      rfl
  · intro c s misses hf hr
    rw [hread] at hr
    obtain ⟨d, hd, hfd⟩ := hf.skipTrivia_eq
    rcases h (skipTrivia s) with ⟨hl, -⟩ | ⟨u, rest', -, -, hr'⟩
    · obtain ⟨c', hc, -, hf'⟩ := hfd.moveTo_eq hf.place
      refine ⟨c', s, ?_, hf'⟩
      simp only [Step.eat, hd, ok_bind, hfd.rest_eq, hl, hc]
      rfl
    · rw [hr'] at hr
      cases hr

theorem utf8Size_toUpper (c : Char) : c.toUpper.utf8Size = c.utf8Size := by
  cases hc : c.isAlpha with
  | true => exact of_isAlpha (P := fun c => c.toUpper.utf8Size = c.utf8Size) (by decide +kernel) hc
  | false => rw [toUpper_of_not_isAlpha hc]

theorem bytes_map_toUpper (s : List Char) : bytes (s.map Char.toUpper) = bytes s := by
  induction s with
  | nil => rfl
  | cons c s ih => simp [utf8Size_toUpper, ih]

theorem sliceTo_eq_ok (h : sliceTo s n = .ok head) :
    ∃ tail, s = head ++ tail ∧ bytes head = n := by
  fun_induction sliceTo s n generalizing head with
  | case1 s => cases h; exact ⟨s, rfl, rfl⟩
  | case2 => cases h
  | case3 c s n hle ih =>
    cases hs : sliceTo s (n + 1 - c.utf8Size) with
    | error => rw [hs] at h; cases h
    | ok head' =>
      rw [hs] at h
      cases h
      obtain ⟨tail, rfl, hb⟩ := ih hs
      exact ⟨tail, rfl, by simp [hb]; omega⟩
  | case4 => cases h

theorem matches_keyword (w : List Char) :
    Matches (Step.keywordLength w) fun s =>
      match afterKeyword? w s with
      | some rest => if startsWord rest then none else some ((), rest)
      | none => none := by
  intro s
  dsimp only
  cases hk : afterKeyword? w s with
  | some tail =>
    obtain ⟨u, rfl, rfl⟩ := afterKeyword?_eq_some_iff.mp hk
    have hlength : Step.keywordLength (u.map Char.toUpper) (u ++ tail) =
        if startsWord tail = false then some (bytes u) else none := by
      rw [Step.keywordLength, bytes_map_toUpper, sliceTo_append, sliceFrom_append]
      simp
    rw [hlength]
    cases hw : startsWord tail with
    | true => exact .inl ⟨rfl, by simp [hw]⟩
    | false => exact .inr ⟨u, tail, rfl, rfl, by simp [hw]⟩
  | none =>
    refine .inl ⟨?_, rfl⟩
    rw [Step.keywordLength]
    split
    next head tail hhead htail =>
      obtain ⟨tail', rfl, -⟩ := sliceTo_eq_ok hhead
      rw [if_neg]
      rintro ⟨hw, -⟩
      rw [afterKeyword?_eq_some_iff.mpr ⟨head, rfl, hw⟩] at hk
      cases hk
    next => rfl

theorem matches_symbol (mark : List Char) :
    Matches (Step.symbolLength mark) (afterSymbol? mark) := by
  intro s
  rw [Step.symbolLength, afterSymbol?]
  split
  next h =>
    obtain ⟨tail, rfl⟩ := List.isPrefixOf_iff_prefix.mp h
    exact .inr ⟨mark, tail, rfl, rfl, by rw [List.drop_left]⟩
  next => exact .inl ⟨rfl, rfl⟩

theorem sound_keyword (w : String) :
    Sound text (keyword w) (Step.eat text (Step.keywordLength w.toList)) :=
  (matches_keyword w.toList).sound (fun _ => rfl) fun _ => rfl

theorem sound_symbol (mark : String) :
    Sound text (symbol mark) (Step.eat text (Step.symbolLength mark.toList)) :=
  (matches_symbol mark.toList).sound (fun _ => rfl) fun _ => rfl

-- ---------------------------------------------------------------------------
-- Tokens with a value
-- ---------------------------------------------------------------------------

theorem take_length_sub (h : s = r ++ rest) : s.take (s.length - rest.length) = r := by
  subst h
  simp

theorem sound_run1 (accepts : Char → Bool) :
    Sound text (run1 accepts) (Step.run1 text accepts) := by
  have hn (s : List Char) : bytes (s.takeWhile accepts) = 0 ↔ s.head?.any accepts = false := by
    rw [bytes_eq_zero_iff]
    cases s with
    | nil => simp
    | cons c s => cases hc : accepts c <;> simp [hc]
  refine .of_silent (fun _ => rfl) ?_ ?_
  · intro c s misses a rest hf hr
    obtain ⟨d, hd, hfd⟩ := hf.skipTrivia_eq
    rw [read_run1] at hr
    split at hr
    next hacc =>
      cases hr
      have hpos : bytes ((skipTrivia s).takeWhile accepts) ≠ 0 := by
        rw [Ne, hn, hacc]
        exact Bool.noConfusion
      obtain ⟨c', hc, -, hf'⟩ := hfd.moveTo_eq (hfd.place.trans (At.dropWhile accepts _))
      have hslice := hfd.place.slice_eq hf'.place (List.dropWhile_suffix accepts)
      have htake := take_length_sub
        (List.takeWhile_append_dropWhile (p := accepts) (l := skipTrivia s)).symm
      refine ⟨c', ?_, hf'⟩
      simp only [Step.run1, hd, ok_bind, hfd.rest_eq, if_neg hpos, hc, hslice, htake]
      rfl
    next => cases hr
  · intro c s misses hf hr
    obtain ⟨d, hd, hfd⟩ := hf.skipTrivia_eq
    rw [read_run1] at hr
    split at hr
    next => cases hr
    next hacc =>
      refine ⟨d, _, ?_, hfd⟩
      simp only [Step.run1, hd, ok_bind, hfd.rest_eq, if_pos ((hn _).mpr (by simpa using hacc))]
      rfl

/-- The contents of a literal lie between its first and its last byte. -/
theorem slice_literal (quote : Char) (body after : List Char) :
    ∃ stop, difference (quote.utf8Size + bytes body + quote.utf8Size) quote.utf8Size = .ok stop ∧
      slice (quote :: (body ++ quote :: after)) quote.utf8Size stop = .ok body := by
  refine ⟨quote.utf8Size + bytes body, ?_, ?_⟩
  · rw [difference_of_le (Nat.le_add_left ..), Nat.add_sub_cancel]
  · have := slice_append [quote] body (quote :: after)
    simpa using this

theorem At.closed {pos : Nat} {quote : Char} {body after : List Char}
    (h : At text pos (quote :: (body ++ quote :: after))) :
    At text (pos + (quote.utf8Size + bytes body + quote.utf8Size)) after := by
  have hu : quote :: (body ++ quote :: after) = (quote :: (body ++ [quote])) ++ after := by simp
  rw [hu] at h
  have := h.advance
  simpa [Nat.add_assoc] using this

theorem sound_quotedName : Sound text quotedName (Step.quotedName text) := by
  refine .of_silent (fun _ => rfl) ?_ ?_
  · intro c s misses a rest hf hr
    obtain ⟨d, hd, hfd⟩ := hf.skipTrivia_eq
    rw [read_quotedName, quoted_eq_some_iff] at hr
    obtain ⟨quote, tail, body, hs, hq, hl, rfl⟩ := hr
    have hlength : literalLength quote false (quote :: tail) =
        some (quote.utf8Size + bytes body + quote.utf8Size) := by
      rw [literalLength_eq, hl]
      rfl
    have hone : quote.utf8Size = 1 := by rcases hq with rfl | rfl <;> rfl
    obtain ⟨stop, hstop, hslice⟩ := slice_literal quote body rest
    rw [readLiteral_eq hl] at hs hlength
    rw [hs] at hfd
    obtain ⟨c', hc, -, hf'⟩ := hfd.moveTo_eq hfd.place.closed
    rw [hone] at hlength hc hstop hslice
    refine ⟨c', ?_, hf'⟩
    simp only [Step.quotedName, hd, ok_bind, hfd.rest_eq, if_pos hq, hlength, hc, hstop, hslice]
    rfl
  · intro c s misses hf hr
    obtain ⟨d, hd, hfd⟩ := hf.skipTrivia_eq
    refine ⟨d, _, ?_, hfd⟩
    rw [read_quotedName] at hr
    simp only [Step.quotedName, hd, ok_bind, hfd.rest_eq]
    cases hs : skipTrivia s with
    | nil => rfl
    | cons quote tail =>
      rw [hs, quoted] at hr
      dsimp only
      split
      next hq =>
        rw [if_pos hq, Option.map_eq_none_iff] at hr
        rw [literalLength_eq, hr]
        rfl
      next => rfl

theorem At.eq_zero_iff_endsBare (h : At s n (pastBare stopAtCast 0 s)) :
    n = 0 ↔ endsBare stopAtCast s = true := by
  have hlt := At.lt_iff (At.start s) h
  have hle := (pastBare_suffix stopAtCast 0 s).length_le
  rw [endsBare_iff_length]
  omega

theorem sound_bare (stopAtCast : Bool) :
    Sound text (bare stopAtCast) (Step.bare text stopAtCast) := by
  refine .of_silent (fun _ => rfl) ?_ ?_
  · intro c s misses a rest hf hr
    obtain ⟨d, hd, hfd⟩ := hf.skipTrivia_eq
    obtain ⟨n, hn, hat⟩ := bareLength_eq stopAtCast (skipTrivia s)
    rw [read_bare] at hr
    split at hr
    next => cases hr
    next he =>
      cases hr
      obtain ⟨c', hc, -, hf'⟩ := hfd.moveTo_eq (hfd.place.trans hat)
      have hslice := hfd.place.slice_eq hf'.place (pastBare_suffix stopAtCast 0 _)
      refine ⟨c', ?_, hf'⟩
      simp only [Step.bare, hd, ok_bind, hfd.rest_eq, hn, hc, hslice,
        if_neg (mt hat.eq_zero_iff_endsBare.mp he)]
      rfl
  · intro c s misses hf hr
    obtain ⟨d, hd, hfd⟩ := hf.skipTrivia_eq
    obtain ⟨n, hn, hat⟩ := bareLength_eq stopAtCast (skipTrivia s)
    rw [read_bare] at hr
    split at hr
    next he =>
      refine ⟨d, _, ?_, hfd⟩
      simp only [Step.bare, hd, ok_bind, hfd.rest_eq, hn, if_pos (hat.eq_zero_iff_endsBare.mpr he)]
      rfl
    next => cases hr

theorem skipToken_eq (h : c.Follows text s misses) :
    ∃ c', Step.skipToken text c = .ok c' ∧ c'.Follows text (pastToken s) misses := by
  obtain ⟨d, hd, hfd⟩ := h.skipTrivia_eq
  simp only [Step.skipToken, hd, ok_bind, hfd.rest_eq]
  cases hs : skipTrivia s with
  | nil =>
    rw [hs] at hfd
    refine ⟨d, rfl, ?_⟩
    rwa [pastToken, hs]
  | cons x rest =>
    rw [hs] at hfd
    dsimp only
    rw [pastToken, hs]
    dsimp only
    split
    next =>
      obtain ⟨c', hc, -, hf'⟩ := hfd.moveTo_eq hfd.place.pastLiteral
      exact ⟨c', hc, hf'⟩
    next =>
      split
      next hx =>
        subst hx
        obtain ⟨n, hn, hat⟩ := groupLength_eq rest
        obtain ⟨c', hc, -, hf'⟩ := hfd.moveTo_eq (hfd.place.trans hat)
        refine ⟨c', ?_, hf'⟩
        rw [hn, ok_bind, hc]
      next =>
        split
        next hx =>
          obtain ⟨c', hc, -, hf'⟩ := hfd.moveTo_eq (hfd.place.trans (At.dropWhile isWordChar _))
          refine ⟨c', hc, ?_⟩
          rwa [List.dropWhile_cons_of_pos hx] at hf'
        next =>
          obtain ⟨c', hc, -, hf'⟩ := hfd.moveTo_eq hfd.place.tail
          exact ⟨c', hc, hf'⟩

theorem sound_unclaimed : Sound text unclaimed (Step.unclaimed text) := by
  have hend {s : List Char} {x : Char} {tail : List Char} (hs : skipTrivia s = x :: tail) :
      atItemEnd s = true ↔ x = ',' ∨ x = ')' := by simp [atItemEnd, hs]
  refine .of_silent (fun _ => rfl) ?_ ?_
  · intro c s misses a rest hf hr
    obtain ⟨d, hd, hfd⟩ := hf.skipTrivia_eq
    rw [read_unclaimed] at hr
    cases hs : skipTrivia s with
    | nil => rw [if_pos (by simp [atItemEnd, hs])] at hr; cases hr
    | cons x tail =>
      by_cases hx : x = ',' ∨ x = ')'
      · rw [if_pos ((hend hs).mpr hx)] at hr
        cases hr
      · rw [if_neg (mt (hend hs).mp hx)] at hr
        cases hr
        obtain ⟨c', hc, hf'⟩ := skipToken_eq hfd
        refine ⟨c', ?_, ?_⟩
        · simp only [Step.unclaimed, hd, ok_bind, hfd.rest_eq, hs, if_neg hx, hc]
          rfl
        · rwa [pastToken, skipTrivia_skipTrivia, ← pastToken] at hf'
  · intro c s misses hf hr
    obtain ⟨d, hd, hfd⟩ := hf.skipTrivia_eq
    refine ⟨d, _, ?_, hfd⟩
    rw [read_unclaimed] at hr
    simp only [Step.unclaimed, hd, ok_bind, hfd.rest_eq]
    cases hs : skipTrivia s with
    | nil => rfl
    | cons x tail =>
      by_cases hx : x = ',' ∨ x = ')'
      · simp only [if_pos hx]
        rfl
      · rw [if_neg (mt (hend hs).mp hx)] at hr
        cases hr

theorem run_literal (quote : Char) (s : List Char) :
    (literal quote).run s =
      match skipTrivia s with
      | [] => ⟨none, []⟩
      | c :: rest =>
        if c = quote then
          match readLiteral quote true rest with
          | some (body, after) => ⟨some (String.ofList body, after), []⟩
          | none => ⟨none, [⟨c :: rest, .closingQuote⟩]⟩
        else ⟨none, []⟩ := rfl

/-- Trivia is skipped once, so a literal that is not closed is missed where it opens. -/
theorem sound_literal (quote : Char) : Sound text (literal quote) (Step.literal text quote) := by
  intro c s misses hf
  obtain ⟨d, hd, hfd⟩ := hf.skipTrivia_eq
  simp only [Rule.read, run_literal, Step.literal, hd, ok_bind, hfd.rest_eq]
  cases hs : skipTrivia s with
  | nil => exact ⟨d, _, rfl, by simpa using hfd, fun _ _ he => by cases he⟩
  | cons x tail =>
    dsimp only
    by_cases hx : x = quote
    · subst hx
      simp only [if_true, literalLength_eq]
      cases hl : readLiteral x true tail with
      | none =>
        obtain ⟨c', hc, hf'⟩ := hfd.fail_eq .closingQuote
        rw [skipTrivia_skipTrivia, hs] at hf'
        exact ⟨c', _, by rw [Option.map_none, hc]; rfl, hf', fun _ _ he => by cases he⟩
      | some found =>
        obtain ⟨body, after⟩ := found
        obtain ⟨stop, hstop, hslice⟩ := slice_literal x body after
        have htail := readLiteral_eq hl
        rw [hs, htail] at hfd
        obtain ⟨c', hc, -, hf'⟩ := hfd.moveTo_eq hfd.place.closed
        refine ⟨c', after, ?_, by simpa using hf', fun a rest he => by cases he; rfl⟩
        rw [← htail] at hslice
        simp only [Option.map_some, hc, ok_bind, hstop, hslice]
        rfl
    · simp only [if_neg hx]
      exact ⟨d, _, rfl, by simpa using hfd, fun _ _ he => by cases he⟩

end

end TableSchema.Checked
