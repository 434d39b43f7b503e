import TableSchema.Proofs.Grammar.Lexeme

/-!
# Seams

`Seam u rest`: the text `u ++ rest` may be cut between the two, since `u` ends in a closing bracket
or in a whole word. What a scan of trivia or of a word finds in `u` it finds in the whole text too,
unless nothing but trivia is left of `u`.
-/

namespace TableSchema.Scan

open Unicode

/-- A closing bracket, or the last character of a whole word, stands before `rest`. -/
def Seam (u rest : List Char) : Prop :=
  ∀ c ∈ u.getLast?, c = ')' ∨ c = ']' ∨ isWordChar c = true ∧ startsWord rest = false

/-- The characters in which a text may end at a seam. -/
def endsSeam (c : Char) : Bool := c == ')' || c == ']' || isWordChar c

theorem isBlank_of_endsSeam (h : endsSeam c = true) : isBlank c = false := by
  simp only [endsSeam, Bool.or_eq_true, beq_iff_eq] at h
  rcases h with (rfl | rfl) | h
  · decide
  · decide
  · exact isBlank_of_isWordChar h

section

variable {u v rest : List Char}

theorem seam_nil (rest : List Char) : Seam [] rest := by
  simp [Seam]

theorem Seam.suffix (h : Seam u rest) (hv : v <:+ u) : Seam v rest := by
  obtain ⟨t, rfl⟩ := hv
  intro c hc
  exact h c (by simp [Option.mem_def.mp hc])

theorem Seam.append (hu : Seam u (v ++ rest)) (hv : Seam v rest) : Seam (u ++ v) rest := by
  intro c hc
  cases hlast : v.getLast? with
  | none =>
    obtain rfl := List.getLast?_eq_none_iff.mp hlast
    exact hu c (by simpa using hc)
  | some d =>
    obtain rfl : d = c := by simpa [hlast] using hc
    exact hv d hlast

theorem Seam.endsSeam (h : Seam u rest) (hc : u.getLast? = some c) : endsSeam c = true := by
  rcases h c hc with rfl | rfl | ⟨hw, -⟩
  · decide +kernel
  · decide +kernel
  · simp [Scan.endsSeam, hw]

-- ---------------------------------------------------------------------------
-- Trivia
-- ---------------------------------------------------------------------------

theorem isBlank_of_skipTrivia (h : skipTrivia u = c :: v) : isBlank c = false := by
  fun_induction skipTrivia u with
  | case1 _ ih => exact ih h
  | case2 _ ih => exact ih h
  | case3 _ _ _ _ _ ih => exact ih h
  | case4 _ _ _ _ hc => cases h; simpa using hc
  | case5 => cases h

/-- A comment that is not closed before the cut ends behind it. -/
theorem pastLine_cut (u rest : List Char) :
    pastLine (u ++ rest) = pastLine u ++ rest ∨
      pastLine u = [] ∧ pastLine (u ++ rest) <:+ rest := by
  induction u with
  | nil => exact .inr ⟨rfl, pastLine_suffix rest⟩
  | cons c u ih =>
    rw [List.cons_append, pastLine, pastLine]
    split
    · exact .inl rfl
    · exact ih

theorem pastBlock_cut (h : u.getLast? ≠ some '*') (rest : List Char) :
    pastBlock (u ++ rest) = pastBlock u ++ rest ∨
      pastBlock u = [] ∧ pastBlock (u ++ rest) <:+ rest := by
  induction u with
  | nil => exact .inr ⟨rfl, pastBlock_suffix rest⟩
  | cons c u ih =>
    rw [List.cons_append, pastBlock_cons, pastBlock_cons]
    cases u with
    | nil =>
      have hc : c ≠ '*' := by simpa using h
      rw [if_neg fun h => hc h.1, if_neg fun h => hc h.1]
      exact .inr ⟨rfl, pastBlock_suffix rest⟩
    | cons d u =>
      have hhead : (d :: u ++ rest).head? = (d :: u).head? := rfl
      rw [hhead]
      split
      · exact .inl rfl
      · exact ih h

/-- Trivia ends before the seam, or goes on behind it. -/
theorem skipTrivia_seam (h : Seam u rest) :
    skipTrivia u ≠ [] ∧ skipTrivia (u ++ rest) = skipTrivia u ++ rest ∨
      skipTrivia u = [] ∧ skipTrivia (u ++ rest) <:+ rest := by
  induction hn : u.length using Nat.strongRecOn generalizing u with
  | ind n ih =>
    subst hn
    match u with
    | [] => exact .inr ⟨skipTrivia_nil, skipTrivia_suffix rest⟩
    | [c] =>
      have hc : Scan.endsSeam c = true := h.endsSeam rfl
      have hblock (s : List Char) : ¬opensBlock (c :: s) := fun ho => by
        rw [(opensBlock_cons.mp ho).1] at hc
        exact absurd hc (by decide +kernel)
      have hline (s : List Char) : ¬opensLine (c :: s) := fun ho => by
        rw [(opensLine_cons.mp ho).1] at hc
        exact absurd hc (by decide +kernel)
      left
      simp [skipTrivia_cons, hblock, hline, isBlank_of_endsSeam hc]
    | c :: d :: u =>
      have hblock : opensBlock (c :: d :: (u ++ rest)) ↔ opensBlock (c :: d :: u) := by
        simp [opensBlock_cons]
      have hline : opensLine (c :: d :: (u ++ rest)) ↔ opensLine (c :: d :: u) := by
        simp [opensLine_cons]
      have hu : Seam u rest := h.suffix ⟨[c, d], rfl⟩
      simp only [List.cons_append, skipTrivia_cons c, hblock, hline, List.tail_cons]
      split
      next =>
        have hlast : u.getLast? ≠ some '*' := fun hc => absurd (hu.endsSeam hc) (by decide +kernel)
        rcases pastBlock_cut hlast rest with heq | ⟨hnil, hrest⟩
        · rw [heq]
          have hle := (pastBlock_suffix u).length_le
          exact ih _ (by simp; omega) (hu.suffix (pastBlock_suffix u)) rfl
        · rw [hnil]
          exact .inr ⟨skipTrivia_nil, (skipTrivia_suffix _).trans hrest⟩
      next =>
      split
      next =>
        rcases pastLine_cut u rest with heq | ⟨hnil, hrest⟩
        · rw [heq]
          have hle := (pastLine_suffix u).length_le
          exact ih _ (by simp; omega) (hu.suffix (pastLine_suffix u)) rfl
        · rw [hnil]
          exact .inr ⟨skipTrivia_nil, (skipTrivia_suffix _).trans hrest⟩
      next =>
      split
      next => exact ih _ (by simp) (h.suffix (List.suffix_cons c _)) rfl
      next => exact .inl ⟨List.cons_ne_nil c _, rfl⟩

-- ---------------------------------------------------------------------------
-- Words
-- ---------------------------------------------------------------------------

theorem run_seam {accepts : Char → Bool} (ha : ∀ c, accepts c = true → isWordChar c = true)
    (h : Seam u rest) (hu : u ≠ []) :
    (u ++ rest).takeWhile accepts = u.takeWhile accepts ∧
      (u ++ rest).dropWhile accepts = u.dropWhile accepts ++ rest := by
  induction u with
  | nil => exact absurd rfl hu
  | cons c u ih =>
    by_cases hc : accepts c = true
    · cases u with
      | nil =>
        have hrest : startsWord rest = false := by
          rcases h c rfl with rfl | rfl | ⟨-, hrest⟩
          · exact absurd (ha _ hc) (by decide +kernel)
          · exact absurd (ha _ hc) (by decide +kernel)
          · exact hrest
        have hrun := takeWhile_of_not_startsWord (u := [c]) ha (by simpa using hc) hrest
        simpa [hc] using hrun
      | cons d u =>
        obtain ⟨htake, hdrop⟩ := ih (h.suffix (List.suffix_cons c _)) (List.cons_ne_nil d u)
        rw [List.cons_append] at htake hdrop ⊢
        rw [List.cons_append, List.takeWhile_cons_of_pos hc, List.dropWhile_cons_of_pos hc, htake,
          hdrop, List.takeWhile_cons_of_pos hc, List.dropWhile_cons_of_pos hc]
        exact ⟨rfl, rfl⟩
    · simp [hc]

end

end TableSchema.Scan
