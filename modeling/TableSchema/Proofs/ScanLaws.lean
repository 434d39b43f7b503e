import TableSchema.Token

/-!
# Laws of scans

The scans that look two characters ahead, as functions of the first character and what follows it.
-/

namespace TableSchema.Scan

open Unicode

/-- A comment of either form opens here. -/
def opensBlock (s : List Char) : Prop := ['/', '*'] <+: s

def opensLine (s : List Char) : Prop := ['-', '-'] <+: s

instance (s : List Char) : Decidable (opensBlock s) := by unfold opensBlock; infer_instance

instance (s : List Char) : Decidable (opensLine s) := by unfold opensLine; infer_instance

theorem opensBlock_cons : opensBlock (c :: rest) ↔ c = '/' ∧ rest.head? = some '*' := by
  cases rest <;> simp [opensBlock, List.cons_prefix_cons, eq_comm]

theorem opensLine_cons : opensLine (c :: rest) ↔ c = '-' ∧ rest.head? = some '-' := by
  cases rest <;> simp [opensLine, List.cons_prefix_cons, eq_comm]

theorem pastBlock_cons (c : Char) (rest : List Char) :
    pastBlock (c :: rest) =
      if c = '*' ∧ rest.head? = some '/' then rest.tail else pastBlock rest := by
  split
  next h =>
    obtain ⟨rfl, h⟩ := h
    obtain ⟨rest, rfl⟩ := List.head?_eq_some_iff.mp h
    rfl
  next h =>
    rw [pastBlock]
    rintro tail rfl rfl
    exact h ⟨rfl, rfl⟩

theorem skipTrivia_cons (c : Char) (rest : List Char) :
    skipTrivia (c :: rest) =
      if opensBlock (c :: rest) then skipTrivia (pastBlock rest.tail)
      else if opensLine (c :: rest) then skipTrivia (pastLine rest.tail)
      else if isBlank c then skipTrivia rest
      else c :: rest := by
  simp only [opensBlock_cons, opensLine_cons]
  split
  next h =>
    obtain ⟨rfl, h⟩ := h
    obtain ⟨rest, rfl⟩ := List.head?_eq_some_iff.mp h
    rw [skipTrivia]; rfl
  next hb =>
    split
    next h =>
      obtain ⟨rfl, h⟩ := h
      obtain ⟨rest, rfl⟩ := List.head?_eq_some_iff.mp h
      rw [skipTrivia]; rfl
    next hl =>
      rw [skipTrivia]
      · rintro tail rfl rfl; exact hb ⟨rfl, rfl⟩
      · rintro tail rfl rfl; exact hl ⟨rfl, rfl⟩

@[simp] theorem skipTrivia_nil : skipTrivia [] = [] := by rw [skipTrivia]

-- ---------------------------------------------------------------------------
-- Literals
-- ---------------------------------------------------------------------------

theorem readLiteral_escape (quote d : Char) (rest : List Char) :
    readLiteral quote true ('\\' :: d :: rest) =
      (readLiteral quote true rest).map fun x => ('\\' :: d :: x.1, x.2) := by
  rw [readLiteral]; rfl

theorem readLiteral_of_ne (he : (escapes && c == '\\') = false) (hc : c ≠ quote)
    (rest : List Char) :
    readLiteral quote escapes (c :: rest) =
      (readLiteral quote escapes rest).map fun x => (c :: x.1, x.2) := by
  cases rest <;> simp [readLiteral, he, hc]

theorem readLiteral_quote (he : (escapes && c == '\\') = false) (rest : List Char) :
    readLiteral c escapes (c :: rest) =
      if rest.head? = some c then
        (readLiteral c escapes rest.tail).map fun x => (c :: c :: x.1, x.2)
      else some ([], rest) := by
  cases rest with
  | nil => simp [readLiteral, he]
  | cons d rest =>
    rw [readLiteral]
    simp only [he, Bool.false_eq_true, if_false, if_true, List.head?_cons, Option.some.injEq,
      List.tail_cons]
    split
    next h => rw [h]
    next => rfl

/-- What follows a literal does not go on with its quote. -/
theorem head?_ne_of_readLiteral (h : readLiteral quote escapes s = some (body, rest)) :
    rest.head? ≠ some quote := by
  fun_induction readLiteral quote escapes s generalizing body rest with
  | case1 => cases h
  | case2 => cases h
  | case3 c _ d s ih =>
    obtain ⟨⟨body, rest⟩, hs, he⟩ := Option.map_eq_some_iff.mp h
    cases he
    exact ih hs
  | case4 => cases h; exact (Option.some_ne_none _).symm
  | case5 s _ ih =>
    obtain ⟨⟨body, rest⟩, hs, he⟩ := Option.map_eq_some_iff.mp h
    cases he
    exact ih hs
  | case6 d s hd => cases h; simpa using hd
  | case7 c s _ _ ih =>
    obtain ⟨⟨body, rest⟩, hs, he⟩ := Option.map_eq_some_iff.mp h
    cases he
    exact ih hs

/-- A literal is read without regard to what follows it. -/
theorem readLiteral_of_body (h : readLiteral quote escapes s = some (body, rest))
    (hrest : rest'.head? ≠ some quote) :
    readLiteral quote escapes (body ++ quote :: rest') = some (body, rest') := by
  fun_induction readLiteral quote escapes s generalizing body rest with
  | case1 => cases h
  | case2 => cases h
  | case3 c hc d s ih =>
    obtain ⟨⟨body, rest⟩, hs, he⟩ := Option.map_eq_some_iff.mp h
    cases he
    simp only [Bool.and_eq_true, beq_iff_eq] at hc
    obtain ⟨rfl, rfl⟩ := hc
    simp [readLiteral_escape, ih hs]
  | case4 hc => cases h; simp [readLiteral_quote (by simpa using hc), hrest]
  | case5 s hc ih =>
    obtain ⟨⟨body, rest⟩, hs, he⟩ := Option.map_eq_some_iff.mp h
    cases he
    simp [readLiteral_quote (by simpa using hc), ih hs]
  | case6 d s _ hc => cases h; simp [readLiteral_quote (by simpa using hc), hrest]
  | case7 c s hc hne ih =>
    obtain ⟨⟨body, rest⟩, hs, he⟩ := Option.map_eq_some_iff.mp h
    cases he
    simp [readLiteral_of_ne (by simpa using hc) hne, ih hs]

/-- A literal whose contents are doubled ends where they end. -/
theorem readLiteral_doubleQuotes (quote : Char) (body : List Char) (h : rest.head? ≠ some quote) :
    readLiteral quote false (doubleQuotes quote body ++ quote :: rest) =
      some (doubleQuotes quote body, rest) := by
  induction body with
  | nil => rw [doubleQuotes, List.nil_append, readLiteral_quote rfl, if_neg h]
  | cons c body ih =>
    rw [doubleQuotes]
    split
    next hc =>
      subst hc
      rw [List.cons_append, List.cons_append, readLiteral_quote rfl, List.head?_cons, if_pos rfl,
        List.tail_cons, ih]
      rfl
    next hc => rw [List.cons_append, readLiteral_of_ne rfl hc, ih]; rfl

theorem undoubleQuotes_doubleQuotes (quote : Char) (s : List Char) :
    undoubleQuotes quote (doubleQuotes quote s) = s := by
  induction s with
  | nil => rfl
  | cons c s ih =>
    rw [doubleQuotes]
    split
    next hc => rw [undoubleQuotes, if_pos ⟨hc, hc⟩, ih]
    next hc =>
      cases hd : doubleQuotes quote s with
      | nil =>
        rw [hd] at ih
        rw [← ih]
        rfl
      | cons d t => rw [undoubleQuotes, if_neg fun h => hc h.1, ← hd, ih]

-- ---------------------------------------------------------------------------
-- Groups and values
-- ---------------------------------------------------------------------------

theorem pastGroup_cons (depth : Nat) (c : Char) (rest : List Char) :
    pastGroup depth (c :: rest) =
      if c = '(' then pastGroup (depth + 1) rest
      else if c = ')' then
        match depth with
        | 0 => rest
        | inner + 1 => pastGroup inner rest
      else if isQuote c then pastGroup depth (pastLiteral c rest)
      else pastGroup depth rest := by
  cases depth <;> rw [pastGroup]

theorem endsBare_close (stopAtCast : Bool) (rest : List Char) :
    endsBare stopAtCast (')' :: rest) = true := by
  simp [endsBare]

theorem pastBare_cons (stopAtCast : Bool) (depth : Nat) (c : Char) (rest : List Char) :
    pastBare stopAtCast depth (c :: rest) =
      if depth = 0 && endsBare stopAtCast (c :: rest) then c :: rest
      else if c = '(' then pastBare stopAtCast (depth + 1) rest
      else if c = ')' then pastBare stopAtCast (depth - 1) rest
      else if isQuote c then pastBare stopAtCast depth (pastLiteral c rest)
      else pastBare stopAtCast depth rest := by
  cases depth with
  | zero =>
    rw [pastBare]
    by_cases he : endsBare stopAtCast (c :: rest) = true
    · simp [he]
    · have hclose : c ≠ ')' := by
        rintro rfl
        exact he (endsBare_close stopAtCast rest)
      simp [he, hclose]
  | succ inner => rw [pastBare]; simp

/-- A value that does not end at once takes its first character. -/
theorem endsBare_iff_length (stopAtCast : Bool) (s : List Char) :
    endsBare stopAtCast s = true ↔ (pastBare stopAtCast 0 s).length = s.length := by
  cases s with
  | nil => simp [endsBare, pastBare]
  | cons c rest =>
    have hlit := (pastLiteral_suffix c rest).length_le
    have hshort (depth : Nat) (r : List Char) (hr : r.length ≤ rest.length) :
        (pastBare stopAtCast depth r).length ≠ (c :: rest).length := by
      have := (pastBare_suffix stopAtCast depth r).length_le
      simp only [List.length_cons]
      omega
    rw [pastBare_cons]
    cases he : endsBare stopAtCast (c :: rest) with
    | true => simp
    | false =>
      simp only [decide_true, Bool.and_false, Bool.false_eq_true, if_false, false_iff]
      repeat' split
      · exact hshort _ _ (Nat.le_refl _)
      · exact hshort _ _ (Nat.le_refl _)
      · exact hshort _ _ hlit
      · exact hshort _ _ (Nat.le_refl _)

end TableSchema.Scan
