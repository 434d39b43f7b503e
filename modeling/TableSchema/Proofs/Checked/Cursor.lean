import TableSchema.Proofs.Checked.Scan
import TableSchema.Proofs.ListLaws
import TableSchema.Proofs.TokenLaws
import TableSchema.ParseError

/-!
# Checked cursors

A cursor holds the offset of what is read next, the furthest offset at which something was missing
and what was required there. Neither offset is ever set without the check that it lies between two
characters of the text. `c.Follows text s misses` says that a cursor is where the grammar has `s`
left and knows of the things missed so far.
-/

namespace TableSchema.Checked

open Scan

structure Cursor where
  pos : Nat := 0
  furthest : Nat := 0
  expected : List Expectation := []

namespace Cursor

def rest (text : List Char) (c : Cursor) : Except Fault (List Char) := sliceFrom text c.pos

def moveTo (text : List Char) (c : Cursor) (pos : Nat) : Except Fault Cursor := do
  let _ ← sliceFrom text pos
  return { c with pos }

def skipTrivia (text : List Char) (c : Cursor) : Except Fault Cursor := do
  c.moveTo text (← pastTrivia text c.pos)

/-- Records that something is required at the next token. -/
def fail (text : List Char) (expected : Expectation) (c : Cursor) : Except Fault Cursor := do
  let c ← c.skipTrivia text
  if c.furthest < c.pos then return { c with furthest := c.pos, expected := [expected] }
  else if c.pos = c.furthest ∧ expected ∉ c.expected then
    return { c with expected := c.expected ++ [expected] }
  else return c

structure Follows (text : List Char) (c : Cursor) (s : List Char) (misses : List Miss) : Prop where
  place : At text c.pos s
  missing : At text c.furthest (ParseError.furthest text misses)
  wanted : c.expected = ParseError.wantedAt (ParseError.furthest text misses) misses

theorem Follows.start (text : List Char) : Follows text {} text [] :=
  ⟨At.start text, At.start text, rfl⟩

section

variable {text s r : List Char} {c : Cursor} {misses : List Miss}

theorem Follows.rest_eq (h : c.Follows text s misses) : c.rest text = .ok s := h.place.sliceFrom_eq

theorem Follows.moveTo_eq {pos : Nat} (h : c.Follows text s misses)
    (hr : At text pos r) : ∃ c', c.moveTo text pos = .ok c' ∧ c'.pos = pos ∧ c'.Follows text r misses := by
  refine ⟨{ c with pos }, ?_, rfl, hr, h.missing, h.wanted⟩
  rw [moveTo, hr.sliceFrom_eq]
  rfl

theorem Follows.skipTrivia_eq (h : c.Follows text s misses) :
    ∃ c', c.skipTrivia text = .ok c' ∧ c'.Follows text (Scan.skipTrivia s) misses := by
  obtain ⟨pos, hpos, hat⟩ := pastTrivia_eq h.place
  obtain ⟨c', hc, -, hc'⟩ := h.moveTo_eq hat
  refine ⟨c', ?_, hc'⟩
  rw [skipTrivia, hpos, ok_bind, hc]

end

end Cursor

-- ---------------------------------------------------------------------------
-- What is missing
-- ---------------------------------------------------------------------------

open ParseError

theorem furthest_append (text : List Char) (misses : List Miss) (m : Miss) :
    furthest text (misses ++ [m]) =
      if m.rest.length < (furthest text misses).length then m.rest
      else furthest text misses := by
  rw [furthest, List.foldl_append]
  rfl

/-- Nothing was missed further on. -/
theorem length_furthest_le (text : List Char) (misses : List Miss) :
    (furthest text misses).length ≤ text.length ∧
      ∀ m ∈ misses, (furthest text misses).length ≤ m.rest.length := by
  induction misses generalizing text with
  | nil => exact ⟨Nat.le_refl _, nofun⟩
  | cons first misses ih =>
    have hstep : furthest text (first :: misses) =
        furthest (if first.rest.length < text.length then first.rest else text) misses := rfl
    have hnext (best : List Char) (h : best = if first.rest.length < text.length then first.rest
        else text) : best.length ≤ text.length ∧ best.length ≤ first.rest.length := by
      subst h
      split <;> omega
    obtain ⟨htext, hfirst⟩ := hnext _ rfl
    obtain ⟨hstart, hrest⟩ := ih (if first.rest.length < text.length then first.rest else text)
    rw [hstep]
    refine ⟨Nat.le_trans hstart htext, fun m hm => ?_⟩
    rcases List.mem_cons.mp hm with rfl | hm
    · exact Nat.le_trans hstart hfirst
    · exact hrest m hm

theorem mem_wantedAt (rest : List Char) (misses : List Miss) (e : Expectation) :
    e ∈ wantedAt rest misses ↔ ∃ m ∈ misses, m.rest.length = rest.length ∧ m.expected = e := by
  simp [wantedAt, and_assoc]

theorem wantedAt_append (rest : List Char) (misses : List Miss) (m : Miss) :
    wantedAt rest (misses ++ [m]) =
      if m.rest.length = rest.length ∧ m.expected ∉ wantedAt rest misses then
        wantedAt rest misses ++ [m.expected]
      else wantedAt rest misses := by
  by_cases hl : m.rest.length = rest.length
  · have hmem : m.expected ∈ wantedAt rest misses ↔ m.expected ∈
        (misses.filter fun m => m.rest.length = rest.length).map (·.expected) := by
      simp [mem_wantedAt, and_assoc]
    have happend : (misses ++ [m]).filter (fun m => m.rest.length = rest.length) =
        misses.filter (fun m => m.rest.length = rest.length) ++ [m] := by simp [hl]
    rw [wantedAt, happend, List.map_append, List.map_singleton, eraseDups_concat]
    by_cases he : m.expected ∈ wantedAt rest misses
    · rw [if_pos (hmem.mp he), if_neg fun h => h.2 he]
      rfl
    · rw [if_neg (mt hmem.mpr he), if_pos ⟨hl, he⟩]
      rfl
  · simp [wantedAt, hl]

/-- Nothing else was wanted yet where something is missing further on than before. -/
theorem wantedAt_of_further (h : rest.length < (furthest text misses).length) :
    wantedAt rest misses = [] := by
  rw [List.eq_nil_iff_forall_not_mem]
  intro e he
  obtain ⟨m, hm, hl, -⟩ := (mem_wantedAt ..).mp he
  have := (length_furthest_le text misses).2 m hm
  omega

theorem Cursor.Follows.fail_eq {text s : List Char} {c : Cursor} {misses : List Miss}
    (h : c.Follows text s misses) (expected : Expectation) :
    ∃ c', c.fail text expected = .ok c' ∧
      c'.Follows text (Scan.skipTrivia s) (misses ++ [⟨Scan.skipTrivia s, expected⟩]) := by
  obtain ⟨d, hd, hf⟩ := h.skipTrivia_eq
  have hlt := At.lt_iff hf.missing hf.place
  rw [fail, hd, ok_bind]
  by_cases hfar : d.furthest < d.pos
  · -- The miss lies further on than all others, so what they wanted is forgotten.
    have hshort := hlt.mpr hfar
    have hfurthest := furthest_append text misses ⟨Scan.skipTrivia s, expected⟩
    rw [if_pos hshort] at hfurthest
    rw [if_pos hfar]
    refine ⟨_, rfl, hf.place, ?_, ?_⟩
    · rw [hfurthest]; exact hf.place
    · rw [hfurthest, wantedAt_append, wantedAt_of_further hshort]
      simp
  · have hfurthest := furthest_append text misses ⟨Scan.skipTrivia s, expected⟩
    rw [if_neg (mt hlt.mp hfar)] at hfurthest
    have hsame : d.pos = d.furthest ↔
        (Scan.skipTrivia s).length = (ParseError.furthest text misses).length := by
      constructor
      · intro he
        have hmissing := hf.missing
        rw [← he] at hmissing
        rw [hf.place.inj hmissing]
      · intro he
        have := At.lt_iff hf.place hf.missing
        omega
    have hwanted := wantedAt_append (ParseError.furthest text misses) misses ⟨Scan.skipTrivia s, expected⟩
    rw [if_neg hfar]
    by_cases hnew : d.pos = d.furthest ∧ expected ∉ d.expected
    · rw [if_pos hnew]
      rw [hsame, hf.wanted] at hnew
      rw [if_pos hnew] at hwanted
      refine ⟨_, rfl, hf.place, by rw [hfurthest]; exact hf.missing, ?_⟩
      rw [hfurthest, hwanted, ← hf.wanted]
    · rw [if_neg hnew]
      rw [hsame, hf.wanted] at hnew
      rw [if_neg hnew] at hwanted
      refine ⟨_, rfl, hf.place, by rw [hfurthest]; exact hf.missing, ?_⟩
      rw [hfurthest, hwanted, ← hf.wanted]

end TableSchema.Checked
