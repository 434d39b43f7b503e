import TableSchema.Proofs.ScanLaws

/-!
# Scans of a text that goes on

What a scan leaves of a text grows by what is added behind the text, as long as the scan does not
run to the end. `Closed` says that a text ends in a semicolon outside every literal; it holds of
what precedes a scan if it holds of what the scan leaves.
-/

namespace TableSchema.Scan

open Unicode

/-- No comment opens in the text and no backslash stands in it. -/
structure Plain (s : List Char) : Prop where
  backslash : '\\' ∉ s
  block : ¬ ['/', '*'] <:+: s
  line : ¬ ['-', '-'] <:+: s

theorem Plain.suffix (h : Plain s) (hr : r <:+ s) : Plain r where
  backslash hm := h.backslash (hr.subset hm)
  block hi := h.block (hi.trans hr.isInfix)
  line hi := h.line (hi.trans hr.isInfix)

theorem Plain.tail (h : Plain (c :: s)) : Plain s := h.suffix (List.suffix_cons c s)

/-- The text ends in a semicolon and all literals that open in it are closed in it. -/
inductive Closed : List Char → Prop where
  | semicolon : Closed [';']
  | char : isQuote c = false → Closed s → Closed (c :: s)
  | literal : isQuote c = true → Closed (pastLiteral c s) → Closed (c :: s)

theorem Closed.ne_nil (h : Closed s) : s ≠ [] := by
  cases h <;> simp

/-- Neither a quote nor a semicolon. -/
def isInert (c : Char) : Bool := !isQuote c && c != ';'

theorem isQuote_of_isInert (h : isInert c = true) : isQuote c = false := by
  simp only [isInert, Bool.and_eq_true, Bool.not_eq_true'] at h
  exact h.1

theorem closed_cons_iff (hc : isInert c = true) : Closed (c :: s) ↔ Closed s := by
  have hq := isQuote_of_isInert hc
  constructor
  · intro h
    cases h with
    | semicolon => simp [isInert] at hc
    | char _ h => exact h
    | literal hq' _ => rw [hq] at hq'; cases hq'
  · exact .char hq

theorem closed_append_iff (hu : ∀ c ∈ u, isInert c = true) : Closed (u ++ s) ↔ Closed s := by
  induction u with
  | nil => exact Iff.rfl
  | cons c u ih =>
    rw [List.cons_append, closed_cons_iff (hu c (List.mem_cons_self ..))]
    exact ih fun d hd => hu d (List.mem_cons_of_mem _ hd)

theorem closed_dropWhile_iff {f : Char → Bool} (hf : ∀ c, f c = true → isInert c = true) :
    Closed (s.dropWhile f) ↔ Closed s := by
  have h := closed_append_iff (u := s.takeWhile f) (s := s.dropWhile f)
    fun c hc => hf c (List.all_eq_true.mp List.all_takeWhile c hc)
  rw [List.takeWhile_append_dropWhile] at h
  exact h.symm

/-- The rest of a run of characters, if the run ends before the text does. -/
theorem dropWhile_append_of_closed {f : Char → Bool} (h : Closed (s.dropWhile f)) (x : List Char) :
    (s ++ x).dropWhile f = s.dropWhile f ++ x := by
  induction s with
  | nil => exact absurd rfl h.ne_nil
  | cons c s ih =>
    rw [List.cons_append, List.dropWhile_cons]
    rw [List.dropWhile_cons] at h ⊢
    split
    next hc => rw [if_pos hc] at h; exact ih h
    next => rfl

theorem takeWhile_append_of_closed {f : Char → Bool} (h : Closed (s.dropWhile f)) (x : List Char) :
    (s ++ x).takeWhile f = s.takeWhile f := by
  induction s with
  | nil => exact absurd rfl h.ne_nil
  | cons c s ih =>
    rw [List.dropWhile_cons] at h
    rw [List.cons_append, List.takeWhile_cons, List.takeWhile_cons]
    split
    next hc => rw [if_pos hc] at h; rw [ih h]
    next => rfl

-- ---------------------------------------------------------------------------
-- Trivia
-- ---------------------------------------------------------------------------

theorem isInert_of_isBlank (h : isBlank c = true) : isInert c = true := by
  have hne (d : Char) (hd : isBlank d = false) : (c == d) = false := by
    rw [beq_eq_false_iff_ne]
    rintro rfl
    rw [h] at hd
    cases hd
  simp only [isInert, isQuote, bne, hne '\'' (by decide), hne '"' (by decide), hne '`' (by decide),
    hne ';' (by decide)]
  rfl

theorem not_opensBlock_append (h : Plain s) (hs : Closed s) (x : List Char) :
    ¬ opensBlock (s ++ x) := by
  intro hb
  cases s with
  | nil => exact hs.ne_nil rfl
  | cons c s =>
    obtain ⟨rfl, ho⟩ := opensBlock_cons.mp hb
    cases s with
    | nil => cases hs with
      | char _ hs => exact hs.ne_nil rfl
      | literal hq _ => cases hq
    | cons d s =>
      obtain rfl : d = '*' := by simpa using ho
      exact h.block ⟨[], s, rfl⟩

theorem not_opensLine_append (h : Plain s) (hs : Closed s) (x : List Char) :
    ¬ opensLine (s ++ x) := by
  intro hb
  cases s with
  | nil => exact hs.ne_nil rfl
  | cons c s =>
    obtain ⟨rfl, ho⟩ := opensLine_cons.mp hb
    cases s with
    | nil => cases hs with
      | char _ hs => exact hs.ne_nil rfl
      | literal hq _ => cases hq
    | cons d s =>
      obtain rfl : d = '-' := by simpa using ho
      exact h.line ⟨[], s, rfl⟩

theorem skipTrivia_of_closed (h : Plain s) (hs : Closed s) (x : List Char) :
    skipTrivia (s ++ x) = s.dropWhile isBlank ++ x := by
  induction s with
  | nil => exact absurd rfl hs.ne_nil
  | cons c s ih =>
    have hb := not_opensBlock_append h hs x
    have hl := not_opensLine_append h hs x
    rw [List.cons_append] at hb hl ⊢
    rw [skipTrivia_cons, if_neg hb, if_neg hl, List.dropWhile_cons]
    split
    next hc => exact ih h.tail ((closed_cons_iff (isInert_of_isBlank hc)).mp hs)
    next => rfl

theorem skipTrivia_append (h : Plain s) (hs : Closed s) (x : List Char) :
    skipTrivia (s ++ x) = skipTrivia s ++ x := by
  have hnil := skipTrivia_of_closed h hs []
  rw [List.append_nil, List.append_nil] at hnil
  rw [skipTrivia_of_closed h hs, hnil]

theorem closed_skipTrivia_iff (h : Plain s) : Closed (skipTrivia s) ↔ Closed s := by
  induction s with
  | nil => rw [skipTrivia_nil]
  | cons c s ih =>
    have hb : ¬ opensBlock (c :: s) := fun hb => h.block hb.isInfix
    have hl : ¬ opensLine (c :: s) := fun hl => h.line hl.isInfix
    rw [skipTrivia_cons, if_neg hb, if_neg hl]
    split
    next hc => rw [ih h.tail, closed_cons_iff (isInert_of_isBlank hc)]
    next => rfl

-- ---------------------------------------------------------------------------
-- Literals
-- ---------------------------------------------------------------------------

/-- Where no backslash stands it does not matter whether backslashes escape. -/
theorem readLiteral_escapes (hs : '\\' ∉ s) (quote : Char) (e e' : Bool) :
    readLiteral quote e s = readLiteral quote e' s := by
  induction hn : s.length using Nat.strongRecOn generalizing s with
  | ind n ih =>
    cases s with
    | nil => rfl
    | cons c s =>
      simp only [List.mem_cons, not_or] at hs
      have hc (e : Bool) : (e && c == '\\') = false := by simp [Ne.symm hs.1]
      by_cases hq : c = quote
      · subst hq
        have ht : '\\' ∉ s.tail := fun h => hs.2 (List.mem_of_mem_tail h)
        have hlt : s.tail.length < n := by rw [List.length_cons] at hn; simp; omega
        rw [readLiteral_quote (hc e), readLiteral_quote (hc e'), ih _ hlt ht rfl]
      · have hlt : s.length < n := by rw [List.length_cons] at hn; omega
        rw [readLiteral_of_ne (hc e) hq, readLiteral_of_ne (hc e') hq, ih _ hlt hs.2 rfl]

/-- A literal that is closed before the text ends is the same one if the text goes on. -/
theorem readLiteral_append (h : readLiteral quote escapes s = some (body, after))
    (ha : after ≠ []) (x : List Char) :
    readLiteral quote escapes (s ++ x) = some (body, after ++ x) := by
  fun_induction readLiteral quote escapes s generalizing body after with
  | case1 => cases h
  | case2 => cases h
  | case3 c he d rest ih =>
    obtain ⟨⟨body, after⟩, hr, heq⟩ := Option.map_eq_some_iff.mp h
    cases heq
    simp only [Bool.and_eq_true, beq_iff_eq] at he
    obtain ⟨rfl, rfl⟩ := he
    rw [List.cons_append, List.cons_append, readLiteral_escape, ih hr ha]
    rfl
  | case4 => cases h; exact absurd rfl ha
  | case5 rest he ih =>
    obtain ⟨⟨body, after⟩, hr, heq⟩ := Option.map_eq_some_iff.mp h
    cases heq
    rw [List.cons_append, readLiteral_quote (by simpa using he)]
    simp [ih hr ha]
  | case6 d rest hd he =>
    cases h
    rw [List.cons_append, readLiteral_quote (by simpa using he)]
    simp [hd]
  | case7 c rest he hc ih =>
    obtain ⟨⟨body, after⟩, hr, heq⟩ := Option.map_eq_some_iff.mp h
    cases heq
    rw [List.cons_append, readLiteral_of_ne (by simpa using he) hc, ih hr ha]
    rfl

theorem pastLiteral_append (h : Closed (pastLiteral quote s)) (x : List Char) :
    pastLiteral quote (s ++ x) = pastLiteral quote s ++ x := by
  unfold pastLiteral at h ⊢
  split at h
  next hr =>
    rw [readLiteral_append hr h.ne_nil]
  next => exact absurd rfl h.ne_nil

/-- Whatever opens a literal in a closed text has its quote. -/
theorem Closed.readLiteral (h : Closed (quote :: s)) (hq : isQuote quote = true)
    (hs : '\\' ∉ s) (escapes : Bool) :
    ∃ body after, readLiteral quote escapes s = some (body, after) ∧ Closed after := by
  cases h with
  | semicolon => cases hq
  | char hq' _ => rw [hq] at hq'; cases hq'
  | literal _ h =>
    rw [readLiteral_escapes hs quote escapes (escapesIn quote)]
    unfold pastLiteral at h
    split at h
    next body after hr => exact ⟨body, after, hr, h⟩
    next => exact absurd rfl h.ne_nil

theorem closed_of_readLiteral (h : readLiteral quote escapes s = some (body, after))
    (hq : isQuote quote = true) (hs : '\\' ∉ s) (ha : Closed after) : Closed (quote :: s) := by
  refine .literal hq ?_
  rw [pastLiteral, readLiteral_escapes hs quote (escapesIn quote) escapes, h]
  exact ha

-- ---------------------------------------------------------------------------
-- Groups and values
-- ---------------------------------------------------------------------------

theorem closed_of_pastGroup (h : Closed (pastGroup depth s)) : Closed s := by
  fun_induction pastGroup depth s with
  | case1 => exact h
  | case2 _ rest ih => exact .char rfl (ih h)
  | case3 rest => exact .char rfl h
  | case4 rest _ _ ih => exact .char rfl (ih h)
  | case5 _ c rest _ _ hq ih => exact .literal hq (ih h)
  | case6 _ c rest _ _ hq ih => exact .char (by simpa using hq) (ih h)

theorem pastGroup_append (h : Closed (pastGroup depth s)) (x : List Char) :
    pastGroup depth (s ++ x) = pastGroup depth s ++ x := by
  fun_induction pastGroup depth s with
  | case1 => exact absurd rfl h.ne_nil
  | case2 _ rest ih => rw [List.cons_append, pastGroup_cons, if_pos rfl, ih h]
  | case3 rest => rw [List.cons_append, pastGroup_cons]; rfl
  | case4 rest _ _ ih => rw [List.cons_append, pastGroup_cons]; exact ih h
  | case5 _ c rest ho hc hq ih =>
    rw [List.cons_append, pastGroup_cons, if_neg ho, if_neg hc, if_pos hq,
      pastLiteral_append (closed_of_pastGroup h), ih h]
  | case6 _ c rest ho hc hq ih =>
    rw [List.cons_append, pastGroup_cons, if_neg ho, if_neg hc, if_neg hq, ih h]

theorem endsBare_append (stopAtCast : Bool) (h : Closed s) (x : List Char) :
    endsBare stopAtCast (s ++ x) = endsBare stopAtCast s := by
  cases s with
  | nil => exact absurd rfl h.ne_nil
  | cons c s =>
    cases s with
    | cons d s => rfl
    | nil =>
      cases h with
      | semicolon => cases stopAtCast <;> rfl
      | char _ h => exact absurd rfl h.ne_nil
      | literal _ h => exact absurd rfl h.ne_nil

theorem closed_of_pastBare (h : Closed (pastBare stopAtCast depth s)) : Closed s := by
  fun_induction pastBare stopAtCast depth s with
  | case1 => exact h
  | case2 => exact h
  | case3 rest _ ih => exact .char rfl (ih h)
  | case4 c rest _ _ hq ih => exact .literal hq (ih h)
  | case5 c rest _ _ hq ih => exact .char (by simpa using hq) (ih h)
  | case6 _ rest ih => exact .char rfl (ih h)
  | case7 _ rest _ ih => exact .char rfl (ih h)
  | case8 _ c rest _ _ hq ih => exact .literal hq (ih h)
  | case9 _ c rest _ _ hq ih => exact .char (by simpa using hq) (ih h)

theorem pastBare_append (h : Closed (pastBare stopAtCast depth s)) (x : List Char) :
    pastBare stopAtCast depth (s ++ x) = pastBare stopAtCast depth s ++ x := by
  fun_induction pastBare stopAtCast depth s with
  | case1 => exact absurd rfl h.ne_nil
  | case2 c rest he =>
    rw [List.cons_append, pastBare, ← List.cons_append, endsBare_append _ h, if_pos he]
  | case3 rest he ih =>
    have hs := Closed.char (c := '(') rfl (closed_of_pastBare h)
    rw [List.cons_append, pastBare, ← List.cons_append, endsBare_append _ hs, if_neg he,
      if_pos rfl, ih h]
  | case4 c rest he ho hq ih =>
    have hlit := closed_of_pastBare h
    rw [List.cons_append, pastBare, ← List.cons_append, endsBare_append _ (.literal hq hlit),
      if_neg he, if_neg ho, if_pos hq, pastLiteral_append hlit, ih h]
  | case5 c rest he ho hq ih =>
    have hs := Closed.char (by simpa using hq) (closed_of_pastBare h)
    rw [List.cons_append, pastBare, ← List.cons_append, endsBare_append _ hs, if_neg he,
      if_neg ho, if_neg hq, ih h]
  | case6 _ rest ih => rw [List.cons_append, pastBare, if_pos rfl, ih h]
  | case7 _ rest ho ih => rw [List.cons_append, pastBare, if_neg ho, if_pos rfl, ih h]
  | case8 _ c rest ho hc hq ih =>
    rw [List.cons_append, pastBare, if_neg ho, if_neg hc, if_pos hq,
      pastLiteral_append (closed_of_pastBare h), ih h]
  | case9 _ c rest ho hc hq ih =>
    rw [List.cons_append, pastBare, if_neg ho, if_neg hc, if_neg hq, ih h]

theorem endsBare_of_false (h : endsBare false s = true) : endsBare true s = true := by
  cases s with
  | nil => rfl
  | cons c s =>
    simp only [endsBare, Bool.false_and, Bool.or_false] at h
    rw [endsBare, h, Bool.true_or]

/-- A value that does not end before a cast goes on where one that does has ended. -/
theorem pastBare_pastBare (depth : Nat) (s : List Char) :
    pastBare false 0 (pastBare true depth s) = pastBare false depth s := by
  induction hn : s.length using Nat.strongRecOn generalizing depth s with
  | ind n ih =>
    cases s with
    | nil => simp [pastBare]
    | cons c s =>
      have hs : s.length < n := by rw [List.length_cons] at hn; omega
      have hl : (pastLiteral c s).length < n :=
        Nat.lt_of_le_of_lt (pastLiteral_suffix c s).length_le hs
      cases depth with
      | zero =>
        rw [pastBare]
        split
        · rfl
        next he =>
          rw [pastBare, if_neg fun h => he (endsBare_of_false h)]
          split
          · exact ih _ hs _ _ rfl
          split
          · exact ih _ hl _ _ rfl
          · exact ih _ hs _ _ rfl
      | succ depth =>
        rw [pastBare, pastBare]
        split
        · exact ih _ hs _ _ rfl
        split
        · exact ih _ hs _ _ rfl
        split
        · exact ih _ hl _ _ rfl
        · exact ih _ hs _ _ rfl

end TableSchema.Scan
