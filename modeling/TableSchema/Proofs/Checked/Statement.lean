import Mathlib.Data.List.TakeWhile
import TableSchema.Proofs.Checked.Rule
import TableSchema.Proofs.Program.Statement
import TableSchema.Proofs.StatementLaws

/-!
# Checked reading of a statement

A whole text read by a cursor: the statement, its options, the statements behind it, and the place
and the words of an error. Both loops over what stands behind the items move forward in every round.
-/

namespace TableSchema.Checked

open Rule Scan

-- ---------------------------------------------------------------------------
-- Places
-- ---------------------------------------------------------------------------

/-- The nearest offset between two characters, from an offset downwards. -/
def boundaryBefore (text : List Char) (offset : Nat) : Except Fault Nat :=
  match sliceTo text offset, offset with
  | .ok _, _ => .ok offset
  | .error _, 0 => .error .underflow
  | .error _, n + 1 => boundaryBefore text n

/-- The offset at which a character stands last. -/
def findLast (mark : Char) : List Char → Option Nat
  | [] => none
  | c :: s =>
    match findLast mark s with
    | some n => some (c.utf8Size + n)
    | none => if c = mark then some 0 else none

def positionAt (text : List Char) (offset : Nat) : Except Fault Position := do
  let offset ← boundaryBefore text (min offset (bytes text))
  let before ← sliceTo text offset
  let lineStart := ((findLast '\n' before).map (· + 1)).getD 0
  return { line := before.count '\n' + 1, column := (← sliceFrom before lineStart).length + 1 }

theorem findLast_newline (s : List Char) :
    (findLast '\n' s = none ∧ '\n' ∉ s) ∨
      ∃ u v, s = u ++ '\n' :: v ∧ '\n' ∉ v ∧ findLast '\n' s = some (bytes u) := by
  induction s with
  | nil => exact .inl ⟨rfl, nofun⟩
  | cons c s ih =>
    rcases ih with ⟨hn, hs⟩ | ⟨u, v, rfl, hv, hu⟩
    · by_cases hc : c = '\n'
      · subst hc
        exact .inr ⟨[], s, rfl, hs, by rw [findLast, hn]; rfl⟩
      · refine .inl ⟨by rw [findLast, hn]; exact if_neg hc, ?_⟩
        simpa using ⟨fun h => hc h.symm, hs⟩
    · exact .inr ⟨c :: u, v, rfl, hv, by rw [findLast, hu]; rfl⟩

theorem ne_newline_of_notMem {v : List Char} (h : '\n' ∉ v) : ∀ c ∈ v, (c != '\n') = true := by
  intro c hc
  rw [bne_iff_ne]
  rintro rfl
  exact h hc

section

variable {text s : List Char} {c : Cursor} {misses : List Miss} {pos : Nat}

theorem boundaryBefore_eq (h : At text pos s) : boundaryBefore text pos = .ok pos := by
  obtain ⟨before, rfl, rfl⟩ := h
  rw [boundaryBefore.eq_def, sliceTo_append]

theorem positionAt_eq (h : At text pos s) : positionAt text pos = .ok (ParseError.placeOf text s) := by
  have hle := h.le_bytes
  have hboundary := boundaryBefore_eq h
  obtain ⟨before, rfl, rfl⟩ := h
  have hplace : ParseError.placeOf (before ++ s) s = Position.after before := by
    rw [ParseError.placeOf, take_length_sub rfl]
  rw [positionAt, Nat.min_eq_left hle, hboundary, ok_bind, sliceTo_append, ok_bind, hplace,
    Position.after]
  rcases findLast_newline before with ⟨hn, hb⟩ | ⟨u, v, rfl, hv, hu⟩
  · have hstart : sliceFrom before 0 = .ok before := by cases before <;> rfl
    have hline : before.reverse.takeWhile (· != '\n') = before.reverse :=
      List.takeWhile_eq_self_iff.mpr (ne_newline_of_notMem (by simpa using hb))
    rw [hline, hn, List.length_reverse]
    simp only [Option.map_none, Option.getD_none, hstart, ok_bind]
    rfl
  · have hsplit : u ++ '\n' :: v = (u ++ ['\n']) ++ v := by simp
    have hstart : sliceFrom (u ++ '\n' :: v) (bytes u + 1) = .ok v := by
      have := sliceFrom_append (u ++ ['\n']) v
      rwa [← hsplit, bytes_append] at this
    have hline : (u ++ '\n' :: v).reverse.takeWhile (· != '\n') = v.reverse := by
      have hrest : ('\n' :: u.reverse).takeWhile (· != '\n') = [] := rfl
      have hbehind := ne_newline_of_notMem (v := v.reverse) (by simpa using hv)
      rw [List.reverse_append, List.reverse_cons, List.append_assoc, List.singleton_append,
        List.takeWhile_append_of_pos hbehind, hrest, List.append_nil]
    rw [hline, hu, List.length_reverse]
    simp only [Option.map_some, Option.getD_some, hstart, ok_bind]
    rfl

-- ---------------------------------------------------------------------------
-- Errors
-- ---------------------------------------------------------------------------

/-- The error of a text that is no statement. -/
def furthestError (text : List Char) (c : Cursor) : Except Fault ParseError := do
  let found := ((Text.words (← sliceFrom text c.furthest)).head?).map fun word =>
    String.ofList (word.take ParseError.quotedLength)
  return {
    detail := .missing c.expected found
    position := some (← positionAt text c.furthest)
    kind :=
      if found.isNone then .unexpectedEof
      else if !c.expected.isEmpty && c.expected.all (·.isKeyword) then .missingClause
      else .syntaxError }

theorem furthestError_eq (h : c.Follows text s misses) :
    furthestError text c = .ok (ParseError.ofMisses text misses) := by
  rw [furthestError, h.missing.sliceFrom_eq, ok_bind, positionAt_eq h.missing, ok_bind, h.wanted]
  rfl

-- ---------------------------------------------------------------------------
-- Behind the items
-- ---------------------------------------------------------------------------

/-- Whether the words of another statement come next. -/
def begins (text : List Char) (c : Cursor) : Except Fault (Bool × Cursor) := do
  let (found, c') ← run text Statement.headProgram c
  return (found.isSome, ← c'.moveTo text c.pos)

/-- One token of the text up to a semicolon or another statement. -/
def optionRound (text : List Char) (c : Cursor) : Except Fault (Round Cursor Cursor) := do
  let c ← c.skipTrivia text
  if bytes text ≤ c.pos then return .finish c
  match ← Step.eat text (Step.symbolLength [';']) c with
  | (some _, c) => return .finish c
  | (none, c) =>
    let (found, c) ← begins text c
    if found then return .finish c else return .again (← Step.skipToken text c)

def skipOptions (text : List Char) (c : Cursor) : Except Fault Cursor :=
  loop (·.pos) (bytes text) (optionRound text) c

/-- One statement behind the first, or what stands for one. -/
def statementRound (text : List Char) (c : Cursor) : Except Fault (Round Cursor (Option Nat)) := do
  let c ← c.skipTrivia text
  if bytes text ≤ c.pos then return .finish none
  let (found, c) ← begins text c
  if found then return .finish (some c.pos) else return .again (← skipOptions text c)

/-- The offset at which another statement begins. -/
def nextStatement (text : List Char) (c : Cursor) : Except Fault (Option Nat) :=
  loop (·.pos) (bytes text) (statementRound text) c

theorem begins_eq (h : c.Follows text s misses) :
    ∃ c' misses', begins text c = .ok (Statement.begins s, c') ∧ c'.Follows text s misses' ∧
      c'.pos = c.pos := by
  obtain ⟨d, r, hd, hf, -⟩ := sound_run text Statement.headProgram h
  obtain ⟨c', hc, hpos, hf'⟩ := hf.moveTo_eq h.place
  refine ⟨c', _, ?_, hf', hpos⟩
  rw [begins, hd, ok_bind]
  dsimp only
  rw [hc]
  show Except.ok (((Statement.head.read s).map Prod.fst).isSome, c') = _
  rw [Option.isSome_map]
  rfl

theorem Cursor.Follows.bytes_le_pos_iff (h : c.Follows text s misses) :
    bytes text ≤ c.pos ↔ s = [] := by
  have := h.place.add_bytes
  rw [← bytes_eq_zero_iff]
  omega

/-- The semicolon is taken where it stands and nothing else is. -/
theorem eat_semicolon (h : c.Follows text s misses) (hs : skipTrivia s = x :: rest) :
    ∃ c', Step.eat text (Step.symbolLength [';']) c = .ok (if x = ';' then some () else none, c') ∧
      c'.Follows text (if x = ';' then rest else s) misses ∧ (x ≠ ';' → c'.pos = c.pos) := by
  obtain ⟨d, hd, hf⟩ := h.skipTrivia_eq
  rw [hs] at hf
  by_cases hx : x = ';'
  · subst hx
    obtain ⟨c', hc, -, hf'⟩ := hf.moveTo_eq hf.place.tail
    refine ⟨c', ?_, by simpa using hf', fun hn => absurd rfl hn⟩
    have hlength : Step.symbolLength [';'] (';' :: rest) = some (';').utf8Size := by
      rw [Step.symbolLength, if_pos (by simp)]
      rfl
    simp only [Step.eat, hd, ok_bind, hf.rest_eq, hlength, hc]
    rfl
  · obtain ⟨c', hc, hpos, hf'⟩ := hf.moveTo_eq h.place
    refine ⟨c', ?_, by simpa [hx] using hf', fun _ => hpos⟩
    have hlength : Step.symbolLength [';'] (x :: rest) = none :=
      if_neg (by simpa using fun he => hx he.symm)
    simp only [Step.eat, hd, ok_bind, hf.rest_eq, hlength, hc, if_neg hx]
    rfl

theorem optionRound_eq (h : c.Follows text s misses) :
    ∃ c' misses',
      (optionRound text c = .ok (.finish c') ∧
        c'.Follows text (Statement.pastOptions s).2 misses') ∨
      (optionRound text c = .ok (.again c') ∧ c'.Follows text (pastToken s) misses' ∧
        (pastToken s).length < s.length ∧
        Statement.pastOptions s = Statement.pastOptions (pastToken s)) := by
  obtain ⟨c1, hc1, h1⟩ := h.skipTrivia_eq
  have hend := h1.bytes_le_pos_iff
  rw [optionRound, hc1, ok_bind]
  cases hs : skipTrivia s with
  | nil =>
    rw [hs] at h1 hend
    rw [if_pos (hend.mpr rfl), Statement.pastOptions_of_nil hs]
    exact ⟨c1, _, .inl ⟨rfl, h1⟩⟩
  | cons x rest =>
    rw [if_neg (mt hend.mp (by rw [hs]; exact List.cons_ne_nil x rest)),
      Statement.pastOptions_of_cons hs]
    obtain ⟨c2, hc2, h2, hpos⟩ := eat_semicolon h1 (by rw [skipTrivia_skipTrivia, hs])
    rw [hc2, ok_bind]
    by_cases hx : x = ';'
    · simp only [if_pos hx] at h2 ⊢
      exact ⟨c2, _, .inl ⟨rfl, h2⟩⟩
    · simp only [if_neg hx] at h2 ⊢
      obtain ⟨c3, misses', hc3, h3, -⟩ := begins_eq h2
      rw [Statement.begins_skipTrivia] at hc3
      rw [hc3, ok_bind]
      cases hb : Statement.begins s with
      | true => exact ⟨c3, _, .inl ⟨rfl, hs ▸ h3⟩⟩
      | false =>
        obtain ⟨c4, hc4, h4⟩ := skipToken_eq h3
        rw [pastToken_skipTrivia] at h4
        refine ⟨c4, _, .inr ⟨?_, h4, Statement.length_pastToken hs, rfl⟩⟩
        show (Step.skipToken text c3 >>= fun c => pure (Round.again c)) = _
        rw [hc4]
        rfl

theorem skipOptions_eq (h : c.Follows text s misses) :
    ∃ c' misses', skipOptions text c = .ok c' ∧
      c'.Follows text (Statement.pastOptions s).2 misses' := by
  induction hn : s.length using Nat.strongRecOn generalizing s c misses with
  | ind n ih =>
    obtain ⟨c1, misses1, ⟨hr, h1⟩ | ⟨hr, h1, hshort, hsame⟩⟩ := optionRound_eq h
    · exact ⟨c1, misses1, loop_finish hr, h1⟩
    · obtain ⟨c2, misses2, hc2, h2⟩ := ih _ (hn ▸ hshort) h1 rfl
      refine ⟨c2, misses2, ?_, hsame ▸ h2⟩
      exact (loop_again hr ((At.lt_iff h.place h1.place).mp hshort) h1.place.le_bytes).trans hc2

theorem statementRound_eq (h : c.Follows text s misses) :
    (∃ start, statementRound text c = .ok (.finish start) ∧
      match Statement.next? s with
      | some second => ∃ pos, start = some pos ∧ At text pos second
      | none => start = none) ∨
    ∃ c' r misses', statementRound text c = .ok (.again c') ∧ c'.Follows text r misses' ∧
      r.length < s.length ∧ Statement.next? r = Statement.next? s := by
  obtain ⟨c1, hc1, h1⟩ := h.skipTrivia_eq
  have hend := h1.bytes_le_pos_iff
  rw [statementRound, hc1, ok_bind]
  cases hs : skipTrivia s with
  | nil =>
    rw [hs] at hend
    rw [if_pos (hend.mpr rfl), Statement.next?_of_nil hs]
    exact .inl ⟨none, rfl, rfl⟩
  | cons x rest =>
    rw [if_neg (mt hend.mp (by rw [hs]; exact List.cons_ne_nil x rest))]
    obtain ⟨c2, misses', hc2, h2, hpos⟩ := begins_eq h1
    rw [Statement.begins_skipTrivia] at hc2
    rw [hc2, ok_bind]
    cases hb : Statement.begins s with
    | true =>
      refine .inl ⟨some c2.pos, rfl, ?_⟩
      rw [Statement.next?_of_cons hs, if_pos hb]
      exact ⟨c2.pos, rfl, hs ▸ h2.place⟩
    | false =>
      obtain ⟨c3, misses3, hc3, h3⟩ := skipOptions_eq h2
      have hsame : Statement.pastOptions (skipTrivia s) = Statement.pastOptions s := by
        rw [Statement.pastOptions_of_cons hs,
          Statement.pastOptions_of_cons (by rw [skipTrivia_skipTrivia, hs]),
          Statement.begins_skipTrivia, pastToken_skipTrivia]
      rw [hsame] at h3
      refine .inr ⟨c3, _, misses3, ?_, h3, Statement.length_pastOptions hs hb,
        Statement.next?_behind_options s⟩
      show (skipOptions text c2 >>= fun c => pure (Round.again c)) = _
      rw [hc3]
      rfl

theorem nextStatement_eq (h : c.Follows text s misses) :
    ∃ start, nextStatement text c = .ok start ∧
      match Statement.next? s with
      | some second => ∃ pos, start = some pos ∧ At text pos second
      | none => start = none := by
  induction hn : s.length using Nat.strongRecOn generalizing s c misses with
  | ind n ih =>
    rcases statementRound_eq h with ⟨start, hr, hstart⟩ | ⟨c1, r, misses1, hr, h1, hshort, hsame⟩
    · exact ⟨start, loop_finish hr, hstart⟩
    · obtain ⟨start, hc2, h2⟩ := ih _ (hn ▸ hshort) h1 rfl
      refine ⟨start, ?_, hsame ▸ h2⟩
      exact (loop_again hr ((At.lt_iff h.place h1.place).mp hshort) h1.place.le_bytes).trans hc2

end

-- ---------------------------------------------------------------------------
-- Whole texts
-- ---------------------------------------------------------------------------

def readStatement (text : List Char) : Except Fault (Except ParseError Statement) := do
  match ← run text Statement.program {} with
  | (none, c) => return .error (← furthestError text c)
  | (some statement, c) =>
    match ← nextStatement text (← skipOptions text c) with
    | some start =>
      return .error {
        detail := .secondStatement
        position := some (← positionAt text start)
        kind := .multipleStatements }
    | none => return .ok statement

theorem readStatement_eq (text : List Char) :
    readStatement text = .ok (Statement.readChars text) := by
  obtain ⟨c, r, hc, h, hrest⟩ := sound_run text Statement.program (Cursor.Follows.start text)
  rw [readStatement, hc, ok_bind, Statement.readChars_eq]
  cases hr : Statement.rule.read text with
  | none =>
    dsimp only [Option.map_none]
    rw [furthestError_eq h]
    rfl
  | some found =>
    obtain ⟨statement, rest⟩ := found
    obtain rfl := hrest statement rest hr
    obtain ⟨c2, misses2, hc2, h2⟩ := skipOptions_eq h
    obtain ⟨start, hstart, hnext⟩ := nextStatement_eq h2
    dsimp only [Option.map_some]
    rw [hc2, ok_bind, hstart, ok_bind]
    cases hn : Statement.next? (Statement.pastOptions rest).2 with
    | none =>
      rw [hn] at hnext
      subst hnext
      rfl
    | some second =>
      rw [hn] at hnext
      obtain ⟨pos, rfl, hat⟩ := hnext
      dsimp only
      rw [positionAt_eq hat]
      rfl

end TableSchema.Checked
