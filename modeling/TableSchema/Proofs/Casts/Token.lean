import TableSchema.Proofs.Casts.Rule
import TableSchema.Proofs.Items.FirstWord

/-!
# Tokens at a seam

Words, numbers and symbols before a seam are tokens of the cut text, since no word goes on behind it
and no symbol begins with a character at which a text may be cut. Words and closing brackets end at
seams. Literals and values without quotes are cut further on, where more than one character is left.
-/

namespace TableSchema

open Scan

namespace Rule

variable {rest : List Char}

-- ---------------------------------------------------------------------------
-- Words and symbols
-- ---------------------------------------------------------------------------

theorem oneToken_run1 {accepts : Char → Bool}
    (ha : ∀ c, accepts c = true → isWordChar c = true) : (run1 accepts).OneToken rest := by
  refine oneToken_of_skipTrivia
    (fun s => if s.head?.any accepts then some (s.takeWhile accepts, s.dropWhile accepts) else none)
    (read_run1 accepts) (consumes_run1 accepts) rfl fun u hs hu => ?_
  obtain ⟨htake, hdrop⟩ := run_seam ha hs hu
  rw [List.head?_append_of_ne_nil u hu, htake, hdrop]
  split <;> rfl

theorem oneToken_word : word.OneToken rest := (oneToken_run1 fun _ => id).bind_pure _

theorem oneToken_number : number.OneToken rest :=
  (oneToken_run1 fun _ => isWordChar_of_isDigit).bind_pure _

/-- A keyword with at least one letter. -/
def isKeyword (w : String) : Bool := isCapital w && !w.toList.isEmpty

theorem isKeyword_iff : isKeyword w = true ↔ isCapital w = true ∧ w.toList ≠ [] := by
  simp [isKeyword]

theorem oneToken_keyword (hw : isKeyword w = true) : (keyword w).OneToken rest := by
  obtain ⟨hcapital, hne⟩ := isKeyword_iff.mp hw
  refine oneToken_of_skipTrivia
    (fun s =>
      if (s.takeWhile isWordChar).map Char.toUpper = w.toList then
        some ((), s.dropWhile isWordChar)
      else none)
    (read_keyword hcapital) (consumes_keyword hne) (if_neg (Ne.symm hne)) fun u hs hu => ?_
  obtain ⟨htake, hdrop⟩ := run_seam (fun _ => id) hs hu
  rw [htake, hdrop]
  split <;> rfl

theorem oneToken_anyKeyword {words : List String} (h : words.all isKeyword = true) :
    (anyKeyword words).OneToken rest := by
  refine oneToken_firstOf fun p hp => ?_
  obtain ⟨w, hw, rfl⟩ := List.mem_map.mp hp
  exact oneToken_keyword (List.all_eq_true.mp h w hw)

theorem detached_keywords {words : List String} (h : words.all isKeyword = true) :
    (keywords words).Detached rest := by
  induction words with
  | nil => exact detached_pure ()
  | cons w words ih =>
    rw [List.all_cons, Bool.and_eq_true] at h
    exact (oneToken_keyword h.1).bind fun _ => ih h.2

/-- A symbol no part of which a text may be cut behind. -/
theorem oneToken_symbol {mark : String} (hne : mark.toList ≠ [])
    (hm : mark.toList.dropLast.all (!endsSeam ·) = true) : (symbol mark).OneToken rest := by
  refine oneToken_of_skipTrivia (afterSymbol? mark.toList) (read_symbol mark) (consumes_symbol hne)
    (afterSymbol?_eq_none_iff.mpr (mt List.prefix_nil.mp hne)) fun u hs hu => ?_
  cases hmark : afterSymbol? mark.toList u with
  | some found =>
    obtain rfl := afterSymbol?_eq_some_iff.mp hmark
    exact afterSymbol?_eq_some_iff.mpr (List.append_assoc ..)
  | none =>
    rw [afterSymbol?_eq_none_iff] at hmark
    refine afterSymbol?_eq_none_iff.mpr fun hp => ?_
    rcases List.prefix_or_prefix_of_prefix hp (List.prefix_append u rest) with hp | ⟨t, ht⟩
    · exact hmark hp
    · -- The text before the seam is a part of the symbol and ends as no text does at a seam.
      have htail : t ≠ [] := by
        rintro rfl
        rw [List.append_nil] at ht
        exact hmark (ht ▸ List.prefix_refl u)
      obtain ⟨c, hlast⟩ := Option.ne_none_iff_exists'.mp (mt List.getLast?_eq_none_iff.mp hu)
      have hmem : c ∈ mark.toList.dropLast := by
        rw [← ht, List.dropLast_append_of_ne_nil htail]
        exact List.mem_append_left _ (List.mem_of_getLast? hlast)
      have hopen := List.all_eq_true.mp hm c hmem
      rw [hs.endsSeam hlast] at hopen
      cases hopen

-- ---------------------------------------------------------------------------
-- Ends of tokens
-- ---------------------------------------------------------------------------

theorem startsWord_afterWord (s : List Char) : startsWord (afterWord s) = false := by
  have h := List.head?_dropWhile_not isWordChar (skipTrivia s)
  unfold startsWord afterWord
  cases hd : ((skipTrivia s).dropWhile isWordChar).head? with
  | none => rfl
  | some c => rw [hd] at h; exact h

theorem seam_afterWord (h : nextWord s ≠ []) :
    ∃ u, s = u ++ afterWord s ∧ Seam u (afterWord s) := by
  obtain ⟨gap, hgap⟩ := skipTrivia_suffix s
  refine ⟨gap ++ nextWord s, ?_, fun c hc => ?_⟩
  · rw [List.append_assoc, nextWord, afterWord, List.takeWhile_append_dropWhile, hgap]
  · rw [List.getLast?_append_of_ne_nil gap h] at hc
    have hword := List.all_eq_true.mp (List.all_takeWhile (l := skipTrivia s)) c
      (List.mem_of_mem_getLast? hc)
    exact .inr (.inr ⟨hword, startsWord_afterWord s⟩)

theorem seals_word : word.Seals := by
  intro s a rest h
  rw [read_word] at h
  split at h
  next => cases h
  next hn =>
    cases h
    exact seam_afterWord hn

theorem seals_keyword (hw : isKeyword w = true) : (keyword w).Seals := by
  obtain ⟨hcapital, hne⟩ := isKeyword_iff.mp hw
  intro s a rest h
  rw [read_keyword hcapital] at h
  split at h
  next hn =>
    cases h
    refine seam_afterWord fun hnil => hne ?_
    rw [← hn, hnil]
    rfl
  next => cases h

theorem seals_keywords {words : List String} (h : words.all isKeyword = true) :
    (keywords words).Seals := by
  induction words with
  | nil => exact seals_pure ()
  | cons w words ih =>
    rw [List.all_cons, Bool.and_eq_true] at h
    exact (seals_keyword h.1).bind fun _ => ih h.2

theorem seals_symbol {mark : String} (hm : mark.toList = [')'] ∨ mark.toList = [']']) :
    (symbol mark).Seals := by
  intro s a rest h
  rw [read_symbol, afterSymbol?_eq_some_iff] at h
  obtain ⟨gap, hgap⟩ := skipTrivia_suffix s
  refine ⟨gap ++ mark.toList, by rw [← hgap, h, List.append_assoc], fun c hc => ?_⟩
  rcases hm with hm | hm
  · exact .inl (by simpa [hm, eq_comm] using hc)
  · exact .inr (.inl (by simpa [hm, eq_comm] using hc))

end Rule

-- ---------------------------------------------------------------------------
-- Literals and values without quotes
-- ---------------------------------------------------------------------------

namespace Scan

variable {s v rest body : List Char}

/-- A literal that is closed before the cut is closed there in the cut text. -/
theorem readLiteral_cut (h : readLiteral quote escapes (s ++ rest) = some (body, v ++ rest))
    (hv : v ≠ []) : readLiteral quote escapes s = some (body, v) := by
  have hs : s = body ++ quote :: v := by
    have := readLiteral_eq h
    rwa [← List.cons_append, ← List.append_assoc, List.append_cancel_right_eq] at this
  have hnext := head?_ne_of_readLiteral h
  rw [List.head?_append_of_ne_nil v hv] at hnext
  rw [hs]
  exact readLiteral_of_body h hnext

theorem pastLiteral_cut (h : v ++ rest <:+ pastLiteral quote (s ++ rest)) (hv : v ≠ []) :
    pastLiteral quote (s ++ rest) = pastLiteral quote s ++ rest := by
  unfold pastLiteral at h ⊢
  cases hl : readLiteral quote (escapesIn quote) (s ++ rest) with
  | none =>
    rw [hl] at h
    exact absurd (List.append_eq_nil_iff.mp (List.suffix_nil.mp h)).1 hv
  | some found =>
    obtain ⟨body, after⟩ := found
    rw [hl] at h
    obtain ⟨t, rfl⟩ := h
    rw [← List.append_assoc] at hl
    rw [readLiteral_cut hl (by simp [hv])]
    exact (List.append_assoc ..).symm

theorem exists_cons_cons (h : 2 ≤ s.length) : ∃ c d t, s = c :: d :: t := by
  rcases s with _ | ⟨c, _ | ⟨d, t⟩⟩
  · simp at h
  · simp at h
  · exact ⟨c, d, t, rfl⟩

theorem endsBare_cut (stopAtCast : Bool) (c : Char) (hs : s ≠ []) (rest : List Char) :
    endsBare stopAtCast (c :: (s ++ rest)) = endsBare stopAtCast (c :: s) := by
  simp only [endsBare, List.head?_append_of_ne_nil s hs]

/-- A value without quotes ends with the same character where two more of the text are left, which
is as far as it looks. -/
theorem pastBare_cut (h : pastBare stopAtCast depth (s ++ rest) = v ++ rest) (hv : 2 ≤ v.length) :
    pastBare stopAtCast depth s = v := by
  induction hn : s.length using Nat.strongRecOn generalizing s depth with
  | ind n ih =>
    have hlength := (pastBare_suffix stopAtCast depth (s ++ rest)).length_le
    rw [h, List.length_append, List.length_append] at hlength
    obtain ⟨c, d, t, rfl⟩ := exists_cons_cons (s := s) (by omega)
    have hends := endsBare_cut stopAtCast c (List.cons_ne_nil d t) rest
    have hnext (depth' : Nat) (h : pastBare stopAtCast depth' (d :: t ++ rest) = v ++ rest) :
        pastBare stopAtCast depth' (d :: t) = v := ih _ (by simp [← hn]) h rfl
    rw [List.cons_append, pastBare_cons, hends] at h
    rw [pastBare_cons]
    split
    next hstop =>
      rw [if_pos hstop, ← List.cons_append, List.append_cancel_right_eq] at h
      exact h
    next hstop =>
    rw [if_neg hstop] at h
    split
    next ho => rw [if_pos ho] at h; exact hnext _ h
    next ho =>
    rw [if_neg ho] at h
    split
    next hc => rw [if_pos hc] at h; exact hnext _ h
    next hc =>
    rw [if_neg hc] at h
    split
    next hq =>
      have hle := (pastLiteral_suffix c (d :: t)).length_le
      have hsuffix : v ++ rest <:+ pastLiteral c (d :: t ++ rest) := by
        rw [if_pos hq] at h
        exact h ▸ pastBare_suffix stopAtCast depth _
      rw [if_pos hq, pastLiteral_cut hsuffix (by rintro rfl; simp at hv)] at h
      exact ih _ (by rw [← hn, List.length_cons]; omega) h rfl
    next hq => rw [if_neg hq] at h; exact hnext _ h

end Scan

theorem Rule.read_bare_cut {stopAtCast : Bool} {u v rest : List Char} {w : String}
    (hskip : skipTrivia (u ++ rest) = u ++ rest) (hu : skipTrivia u = u) (hv : 2 ≤ v.length)
    (h : (bare stopAtCast).read (u ++ rest) = some (w, v ++ rest)) :
    (bare stopAtCast).read u = some (w, v) := by
  have hlength := (read_suffix h).length_le
  rw [List.length_append, List.length_append] at hlength
  obtain ⟨c, d, t, rfl⟩ := exists_cons_cons (s := u) (by omega)
  have hends : endsBare stopAtCast (c :: d :: t ++ rest) = endsBare stopAtCast (c :: d :: t) :=
    endsBare_cut stopAtCast c (List.cons_ne_nil d t) rest
  rw [read_bare, hskip, hends] at h
  rw [read_bare, hu]
  split
  next he => rw [if_pos he] at h; cases h
  next he =>
    rw [if_neg he, Option.some.injEq, Prod.mk.injEq] at h
    obtain ⟨hvalue, hrest⟩ := h
    rw [pastBare_cut hrest hv, ← hvalue, hrest]
    simp only [List.length_append, Nat.add_sub_add_right]
    rw [List.take_append_of_le_length (Nat.sub_le ..)]

end TableSchema
