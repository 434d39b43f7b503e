import TableSchema.Proofs.Checked.Offset
import TableSchema.Proofs.ScanLaws

/-!
# Checked scans

The scans over trivia, literals, groups and bare values as loops on offsets. From the offset of a
place each of them comes, without a fault, to the offset of the place where the scan of the grammar
ends.
-/

namespace TableSchema.Checked

open Rule Scan Unicode

-- ---------------------------------------------------------------------------
-- Trivia
-- ---------------------------------------------------------------------------

/-- The offset at which a mark stands first. -/
def find (mark : List Char) : List Char → Option Nat
  | [] => none
  | c :: s => if mark.isPrefixOf (c :: s) then some 0 else (find mark s).map (c.utf8Size + ·)

/-- The length of white space or of a comment, where one of them stands. -/
def triviaLength (remaining : List Char) : Option Nat :=
  let blanks := bytes (remaining.takeWhile isBlank)
  if 0 < blanks then some blanks
  else if opensBlock remaining then
    some (((find ['*', '/'] (remaining.drop 2)).map (2 + · + 2)).getD (bytes remaining))
  else if opensLine remaining then
    some (((find ['\n'] remaining).map (· + 1)).getD (bytes remaining))
  else none

def triviaRound (text : List Char) (pos : Nat) : Except Fault (Round Nat Nat) := do
  match triviaLength (← sliceFrom text pos) with
  | some length => return .again (pos + length)
  | none => return .finish pos

/-- The offset behind trivia. -/
def pastTrivia (text : List Char) (pos : Nat) : Except Fault Nat :=
  loop id (bytes text) (triviaRound text) pos

theorem find_block (body : List Char) :
    (find ['*', '/'] body = none ∧ pastBlock body = []) ∨
      ∃ u, body = u ++ '*' :: '/' :: pastBlock body ∧ find ['*', '/'] body = some (bytes u) := by
  induction body with
  | nil => exact .inl ⟨rfl, rfl⟩
  | cons c body ih =>
    by_cases h : ['*', '/'] <+: c :: body
    · obtain ⟨rest, hrest⟩ := h
      cases hrest
      exact .inr ⟨[], by simp [pastBlock], by simp [find]⟩
    · have hp : pastBlock (c :: body) = pastBlock body := by
        rw [pastBlock_cons, if_neg]
        rintro ⟨rfl, hd⟩
        obtain ⟨rest, rfl⟩ := List.head?_eq_some_iff.mp hd
        exact h ⟨rest, rfl⟩
      have hf : find ['*', '/'] (c :: body) = (find ['*', '/'] body).map (c.utf8Size + ·) := by
        rw [find, if_neg (by simpa using h)]
      rw [hp, hf]
      rcases ih with ⟨hn, hb⟩ | ⟨u, hu, hs⟩
      · exact .inl ⟨by rw [hn]; rfl, hb⟩
      · exact .inr ⟨c :: u, by rw [List.cons_append, ← hu], by rw [hs]; rfl⟩

theorem find_line (s : List Char) :
    (find ['\n'] s = none ∧ pastLine s = []) ∨
      ∃ u, s = u ++ '\n' :: pastLine s ∧ find ['\n'] s = some (bytes u) := by
  induction s with
  | nil => exact .inl ⟨rfl, rfl⟩
  | cons c s ih =>
    by_cases hc : c = '\n'
    · subst hc
      exact .inr ⟨[], by simp [pastLine], by simp [find]⟩
    · have hp : pastLine (c :: s) = pastLine s := by rw [pastLine, if_neg hc]
      have hf : find ['\n'] (c :: s) = (find ['\n'] s).map (c.utf8Size + ·) := by
        rw [find, if_neg (by simpa using fun h => hc h.symm)]
      rw [hp, hf]
      rcases ih with ⟨hn, hb⟩ | ⟨u, hu, hs⟩
      · exact .inl ⟨by rw [hn]; rfl, hb⟩
      · exact .inr ⟨c :: u, by rw [List.cons_append, ← hu], by rw [hs]; rfl⟩

theorem skipTrivia_dropWhile (s : List Char) :
    Scan.skipTrivia (s.dropWhile isBlank) = Scan.skipTrivia s := by
  induction s with
  | nil => rfl
  | cons c s ih =>
    by_cases hc : isBlank c = true
    · have hne (d : Char) (hd : isBlank d = false) : c ≠ d := by
        rintro rfl
        rw [hc] at hd
        cases hd
      rw [List.dropWhile_cons_of_pos hc, ih, skipTrivia_cons, if_neg, if_neg, if_pos hc]
      · exact fun ho => hne '-' (by decide) (opensLine_cons.mp ho).1
      · exact fun ho => hne '/' (by decide) (opensBlock_cons.mp ho).1
    · rw [List.dropWhile_cons_of_neg hc]

theorem triviaLength_eq_none (h : triviaLength s = none) : skipTrivia s = s := by
  simp only [triviaLength] at h
  split at h
  next => cases h
  next hb =>
    split at h
    next => cases h
    next hblock =>
      split at h
      next => cases h
      next hline =>
        cases s with
        | nil => exact skipTrivia_nil
        | cons c s =>
          rw [skipTrivia_cons, if_neg hblock, if_neg hline, if_neg]
          intro hc
          have := c.utf8Size_pos
          rw [List.takeWhile_cons_of_pos hc, bytes_cons] at hb
          omega

theorem block_length (body : List Char) :
    ∃ u, '/' :: '*' :: body = u ++ pastBlock body ∧ 0 < bytes u ∧
      bytes u = ((find ['*', '/'] body).map (2 + · + 2)).getD (bytes ('/' :: '*' :: body)) := by
  have hopen : bytes ['/', '*'] = 2 := rfl
  have hclose : bytes ['*', '/'] = 2 := rfl
  rcases find_block body with ⟨hn, hb⟩ | ⟨u, hu, hs⟩
  · exact ⟨_, by rw [hb, List.append_nil], bytes_pos (by simp), by rw [hn]; rfl⟩
  · refine ⟨['/', '*'] ++ (u ++ ['*', '/']), ?_, bytes_pos (by simp), ?_⟩
    · conv => lhs; rw [hu]
      simp
    · rw [hs, bytes_append, bytes_append, hopen, hclose, Option.map_some, Option.getD_some]
      omega

theorem line_length (hne : s ≠ []) :
    ∃ u, s = u ++ pastLine s ∧ 0 < bytes u ∧
      bytes u = ((find ['\n'] s).map (· + 1)).getD (bytes s) := by
  rcases find_line s with ⟨hn, hb⟩ | ⟨u, hu, hs⟩
  · exact ⟨_, by rw [hb, List.append_nil], bytes_pos hne, by rw [hn]; rfl⟩
  · refine ⟨u ++ ['\n'], ?_, bytes_pos (by simp), ?_⟩
    · conv => lhs; rw [hu]
      simp
    · rw [hs, bytes_append]
      rfl

theorem triviaLength_eq_some (h : triviaLength s = some n) :
    ∃ u r, s = u ++ r ∧ bytes u = n ∧ 0 < bytes u ∧ skipTrivia r = skipTrivia s := by
  simp only [triviaLength] at h
  split at h
  next hb =>
    cases h
    exact ⟨_, _, List.takeWhile_append_dropWhile.symm, rfl, hb, skipTrivia_dropWhile s⟩
  next =>
    split at h
    next hblock =>
      cases h
      obtain ⟨body, rfl⟩ := hblock
      obtain ⟨u, hu, hpos, hlength⟩ := block_length body
      refine ⟨u, _, hu, hlength, hpos, ?_⟩
      rw [List.cons_append, skipTrivia_cons, if_pos ⟨body, rfl⟩]
      rfl
    next hblock =>
      split at h
      next hline =>
        cases h
        obtain ⟨body, rfl⟩ := hline
        obtain ⟨u, hu, hpos, hlength⟩ := line_length (s := ['-', '-'] ++ body) (by simp)
        refine ⟨u, _, hu, hlength, hpos, ?_⟩
        have hskip : skipTrivia (['-', '-'] ++ body) = skipTrivia (pastLine body) := by
          rw [List.cons_append, skipTrivia_cons,
            if_neg fun ho => absurd (opensBlock_cons.mp ho).1 (by decide), if_pos ⟨body, rfl⟩]
          rfl
        rw [hskip]
        rfl
      next => cases h

theorem pastTrivia_eq {text s : List Char} {pos : Nat} (h : At text pos s) :
    ∃ q, pastTrivia text pos = .ok q ∧ At text q (skipTrivia s) := by
  induction hn : s.length using Nat.strongRecOn generalizing s pos with
  | ind n ih =>
    cases hl : triviaLength s with
    | none =>
      refine ⟨pos, loop_finish ?_, by rwa [triviaLength_eq_none hl]⟩
      rw [triviaRound, h.sliceFrom_eq, ok_bind, hl]
      rfl
    | some length =>
      obtain ⟨u, r, rfl, rfl, hpos, hskip⟩ := triviaLength_eq_some hl
      have hshort : r.length < n := by
        have hu : u ≠ [] := fun hu => absurd hpos (by simp [hu])
        have := List.length_pos_iff.mpr hu
        rw [List.length_append] at hn
        omega
      obtain ⟨q, hq, hat⟩ := ih r.length hshort h.advance rfl
      refine ⟨q, ?_, hskip ▸ hat⟩
      rw [← hq]
      refine loop_again ?_ (Nat.lt_add_of_pos_right hpos) h.advance.le_bytes
      rw [triviaRound, h.sliceFrom_eq, ok_bind, hl]
      rfl

-- ---------------------------------------------------------------------------
-- Literals
-- ---------------------------------------------------------------------------

/-- The offset behind the closing quote, `idx` being the offset where the text begins. -/
def closingQuote (quote : Char) (escapes : Bool) (idx : Nat) : List Char → Option Nat
  | [] => none
  | c :: rest =>
    if escapes && c == '\\' then
      match rest with
      | [] => none
      | d :: rest => closingQuote quote escapes (idx + c.utf8Size + d.utf8Size) rest
    else if c = quote then
      match rest with
      | [] => some (idx + c.utf8Size)
      | d :: rest =>
        if d = quote then closingQuote quote escapes (idx + c.utf8Size + d.utf8Size) rest
        else some (idx + c.utf8Size)
    else closingQuote quote escapes (idx + c.utf8Size) rest

/-- The length of the literal that opens a text, with both quotes. -/
def literalLength (quote : Char) (escapes : Bool) (s : List Char) : Option Nat :=
  closingQuote quote escapes quote.utf8Size s.tail

theorem closingQuote_eq (quote : Char) (escapes : Bool) (idx : Nat) (s : List Char) :
    closingQuote quote escapes idx s =
      (readLiteral quote escapes s).map fun x => idx + bytes x.1 + quote.utf8Size := by
  fun_induction closingQuote quote escapes idx s with
  | case1 => rfl
  | case2 idx c hc => simp [readLiteral, hc]
  | case3 idx c hc d rest ih =>
    rw [readLiteral, if_pos hc, ih]
    cases readLiteral quote escapes rest <;> simp [Nat.add_assoc]
  | case4 idx hc => simp [readLiteral, hc]
  | case5 idx rest hc ih =>
    rw [readLiteral, if_neg hc, if_pos rfl, ih]
    simp only [if_true]
    cases readLiteral quote escapes rest <;> simp [Nat.add_assoc]
  | case6 idx d rest hd hc => simp [readLiteral, hc, hd]
  | case7 idx c rest hc hq ih =>
    rw [readLiteral_of_ne (by simpa using hc) hq, ih]
    cases readLiteral quote escapes rest <;> simp [Nat.add_assoc]

theorem literalLength_eq (quote c : Char) (escapes : Bool) (s : List Char) :
    literalLength quote escapes (c :: s) =
      (readLiteral quote escapes s).map fun x => quote.utf8Size + bytes x.1 + quote.utf8Size :=
  closingQuote_eq ..

/-- A literal is passed over whole, and so is the rest of the text where it is not closed. -/
theorem At.pastLiteral {text rest : List Char} (h : At text pos (c :: rest)) :
    At text (pos + ((literalLength c (escapesIn c) (c :: rest)).getD (bytes (c :: rest))))
      (Scan.pastLiteral c rest) := by
  rw [literalLength_eq, Scan.pastLiteral]
  cases hr : readLiteral c (escapesIn c) rest with
  | none => exact At.advance (by rwa [List.append_nil])
  | some x =>
    obtain ⟨body, after⟩ := x
    rw [readLiteral_eq hr] at h
    have hu : c :: (body ++ c :: after) = (c :: (body ++ [c])) ++ after := by simp
    rw [hu] at h
    have := h.advance
    simpa [Nat.add_assoc] using this

-- ---------------------------------------------------------------------------
-- Groups
-- ---------------------------------------------------------------------------

/-- One character of a group, or a literal in it. The state is the number of open parentheses and
the offset. -/
def groupRound (s : List Char) (x : Nat × Nat) : Except Fault (Round (Nat × Nat) Nat) := do
  match ← sliceFrom s x.2 with
  | [] => return .finish (bytes s)
  | c :: rest =>
    if c = '(' then return .again (x.1 + 1, x.2 + c.utf8Size)
    else if c = ')' then
      let depth ← difference x.1 1
      if depth = 0 then return .finish (x.2 + c.utf8Size)
      else return .again (depth, x.2 + c.utf8Size)
    else if isQuote c then
      let whole ← difference (bytes s) x.2
      return .again (x.1, x.2 + (literalLength c (escapesIn c) (c :: rest)).getD whole)
    else return .again (x.1, x.2 + c.utf8Size)

/-- The length of the group that opens a text. -/
def groupLength (s : List Char) : Except Fault Nat := loop (·.2) (bytes s) (groupRound s) (0, 0)

theorem At.tail {text rest : List Char} (h : At text pos (c :: rest)) :
    At text (pos + c.utf8Size) rest := by
  have := At.advance (u := [c]) h
  simpa using this

theorem literalLength_pos (c : Char) (s : List Char) :
    0 < (literalLength c (escapesIn c) (c :: s)).getD (bytes (c :: s)) := by
  have := c.utf8Size_pos
  rw [literalLength_eq]
  cases readLiteral c (escapesIn c) s with
  | none => exact bytes_pos (List.cons_ne_nil c s)
  | some x => simp; omega

theorem groupRound_nil (h : At s i []) : groupRound s (depth, i) = .ok (.finish i) := by
  rw [groupRound, h.sliceFrom_eq, ok_bind, ← h.add_bytes]
  rfl

theorem groupRound_cons {s rest : List Char} (h : At s i (c :: rest)) :
    groupRound s (depth, i) =
      if c = '(' then .ok (.again (depth + 1, i + c.utf8Size))
      else if c = ')' then
        (difference depth 1).map fun inner =>
          if inner = 0 then .finish (i + c.utf8Size) else .again (inner, i + c.utf8Size)
      else if isQuote c then
        .ok (.again (depth, i + (literalLength c (escapesIn c) (c :: rest)).getD (bytes (c :: rest))))
      else .ok (.again (depth, i + c.utf8Size)) := by
  have hwhole : difference (bytes s) i = .ok (bytes (c :: rest)) := by
    have := h.add_bytes
    rw [difference_of_le (by omega), ← this, Nat.add_sub_cancel_left]
  rw [groupRound, h.sliceFrom_eq, ok_bind]
  simp only [hwhole, ok_bind]
  split
  next => rfl
  next =>
    split
    next =>
      cases difference depth 1 with
      | error => rfl
      | ok inner => cases inner <;> rfl
    next => split <;> rfl

theorem groupLoop_eq (depth : Nat) {s r : List Char} (h : At s i r) :
    ∃ n, loop (·.2) (bytes s) (groupRound s) (depth + 1, i) = .ok n ∧
      At s n (pastGroup depth r) := by
  induction hn : r.length using Nat.strongRecOn generalizing r i depth with
  | ind n ih =>
    cases r with
    | nil => exact ⟨i, loop_finish (groupRound_nil h), by rwa [pastGroup]⟩
    | cons c rest =>
      have hc := c.utf8Size_pos
      have hstep {depth' : Nat} (hround : groupRound s (depth + 1, i) =
          .ok (.again (depth' + 1, i + c.utf8Size))) : ∃ n, loop (·.2) (bytes s) (groupRound s)
            (depth + 1, i) = .ok n ∧ At s n (pastGroup depth' rest) := by
        obtain ⟨n, hl, hat⟩ := ih rest.length (by simp at hn; omega) depth' h.tail rfl
        exact ⟨n, by rw [← hl]; exact loop_again hround (by simp; omega) h.tail.le_bytes, hat⟩
      rw [pastGroup_cons]
      split
      next ho =>
        exact hstep (by rw [groupRound_cons h, if_pos ho])
      next ho =>
        split
        next hclose =>
          cases depth with
          | zero =>
            refine ⟨i + c.utf8Size, loop_finish ?_, h.tail⟩
            rw [groupRound_cons h, if_neg ho, if_pos hclose]
            rfl
          | succ inner =>
            refine hstep ?_
            rw [groupRound_cons h, if_neg ho, if_pos hclose]
            rfl
        next hclose =>
          split
          next hq =>
            have hlit := h.pastLiteral
            have hshort := (pastLiteral_suffix c rest).length_le
            obtain ⟨n, hl, hat⟩ := ih _ (by simp at hn; omega) depth hlit rfl
            refine ⟨n, ?_, hat⟩
            rw [← hl]
            refine loop_again ?_ (Nat.lt_add_of_pos_right (literalLength_pos c rest)) hlit.le_bytes
            rw [groupRound_cons h, if_neg ho, if_neg hclose, if_pos hq]
          next hq =>
            exact hstep (by rw [groupRound_cons h, if_neg ho, if_neg hclose, if_neg hq])

/-- The parenthesis that opens a group is counted first, so no other is closed before it. -/
theorem groupLength_eq (rest : List Char) :
    ∃ n, groupLength ('(' :: rest) = .ok n ∧ At ('(' :: rest) n (pastGroup 0 rest) := by
  have h := At.start ('(' :: rest)
  obtain ⟨n, hn, hat⟩ := groupLoop_eq 0 h.tail
  refine ⟨n, ?_, hat⟩
  rw [← hn]
  refine loop_again ?_ (by decide) h.tail.le_bytes
  rw [groupRound, h.sliceFrom_eq]
  rfl

-- ---------------------------------------------------------------------------
-- Bare values
-- ---------------------------------------------------------------------------

/-- One character of a value without quotes around it, or a literal in it. -/
def bareRound (stopAtCast : Bool) (s : List Char) (x : Nat × Nat) :
    Except Fault (Round (Nat × Nat) Nat) := do
  match ← sliceFrom s x.2 with
  | [] => return .finish x.2
  | c :: rest =>
    if x.1 = 0 && endsBare stopAtCast (c :: rest) then return .finish x.2
    else if c = '(' then return .again (x.1 + 1, x.2 + c.utf8Size)
    else if c = ')' then return .again (← difference x.1 1, x.2 + c.utf8Size)
    else if isQuote c then
      return .again (x.1, x.2 + (literalLength c (escapesIn c) (c :: rest)).getD
        (bytes (c :: rest)))
    else return .again (x.1, x.2 + c.utf8Size)

def bareLength (stopAtCast : Bool) (s : List Char) : Except Fault Nat :=
  loop (·.2) (bytes s) (bareRound stopAtCast s) (0, 0)

theorem bareRound_nil (stopAtCast : Bool) (h : At s i []) :
    bareRound stopAtCast s (depth, i) = .ok (.finish i) := by
  rw [bareRound, h.sliceFrom_eq, ok_bind]
  rfl

/-- A value ends at a closing parenthesis outside all groups. -/
theorem bareRound_cons (stopAtCast : Bool) {s rest : List Char} (h : At s i (c :: rest)) :
    bareRound stopAtCast s (depth, i) =
      if depth = 0 && endsBare stopAtCast (c :: rest) then .ok (.finish i)
      else if c = '(' then .ok (.again (depth + 1, i + c.utf8Size))
      else if c = ')' then (difference depth 1).map fun inner => .again (inner, i + c.utf8Size)
      else if isQuote c then
        .ok (.again (depth, i + (literalLength c (escapesIn c) (c :: rest)).getD (bytes (c :: rest))))
      else .ok (.again (depth, i + c.utf8Size)) := by
  rw [bareRound, h.sliceFrom_eq, ok_bind]
  dsimp only
  split
  next => rfl
  next =>
    split
    next => rfl
    next =>
      split
      next => cases difference depth 1 <;> rfl
      next => split <;> rfl

theorem bareLoop_eq (stopAtCast : Bool) (depth : Nat) {s r : List Char} (h : At s i r) :
    ∃ n, loop (·.2) (bytes s) (bareRound stopAtCast s) (depth, i) = .ok n ∧
      At s n (pastBare stopAtCast depth r) := by
  induction hn : r.length using Nat.strongRecOn generalizing r i depth with
  | ind n ih =>
    cases r with
    | nil => exact ⟨i, loop_finish (bareRound_nil stopAtCast h), by cases depth <;> rwa [pastBare]⟩
    | cons c rest =>
      have hc := c.utf8Size_pos
      have hstep {depth' : Nat} (hround : bareRound stopAtCast s (depth, i) =
          .ok (.again (depth', i + c.utf8Size))) : ∃ n, loop (·.2) (bytes s)
            (bareRound stopAtCast s) (depth, i) = .ok n ∧
            At s n (pastBare stopAtCast depth' rest) := by
        obtain ⟨n, hl, hat⟩ := ih rest.length (by simp at hn; omega) depth' h.tail rfl
        exact ⟨n, by rw [← hl]; exact loop_again hround (by simp; omega) h.tail.le_bytes, hat⟩
      rw [pastBare_cons]
      split
      next he => exact ⟨i, loop_finish (by rw [bareRound_cons _ h, if_pos he]), h⟩
      next he =>
        split
        next ho => exact hstep (by rw [bareRound_cons _ h, if_neg he, if_pos ho])
        next ho =>
          split
          next hclose =>
            -- Outside all groups the value would have ended here.
            have hdepth : depth ≠ 0 := by
              rintro rfl
              subst hclose
              exact he (by simp [endsBare_close])
            refine hstep ?_
            rw [bareRound_cons _ h, if_neg he, if_neg ho, if_pos hclose,
              difference_of_le (Nat.one_le_iff_ne_zero.mpr hdepth)]
            rfl
          next hclose =>
            split
            next hq =>
              have hlit := h.pastLiteral
              have hshort := (pastLiteral_suffix c rest).length_le
              obtain ⟨n, hl, hat⟩ := ih _ (by simp at hn; omega) depth hlit rfl
              refine ⟨n, ?_, hat⟩
              rw [← hl]
              refine loop_again ?_ (Nat.lt_add_of_pos_right (literalLength_pos c rest))
                hlit.le_bytes
              rw [bareRound_cons _ h, if_neg he, if_neg ho, if_neg hclose, if_pos hq]
            next hq =>
              exact hstep (by
                rw [bareRound_cons _ h, if_neg he, if_neg ho, if_neg hclose, if_neg hq])

theorem bareLength_eq (stopAtCast : Bool) (s : List Char) :
    ∃ n, bareLength stopAtCast s = .ok n ∧ At s n (pastBare stopAtCast 0 s) :=
  bareLoop_eq stopAtCast 0 (At.start s)

end TableSchema.Checked
