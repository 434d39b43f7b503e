import TableSchema.Proofs.Comments.Place

/-!
# Literals, groups and values around a comment

A scan that leaves the place ahead sees nothing of it. One that passes it over inside a group or a
literal sees the characters of the comment, but only quotes and parentheses count there.
-/

namespace TableSchema

open Rule Scan Unicode

section

variable {r : Replacement} {s t : List Char}

-- ---------------------------------------------------------------------------
-- Literals
-- ---------------------------------------------------------------------------

theorem isSolid_of_isQuote (hq : isQuote q = true) : isSolid q = true := by
  simp only [isQuote, Bool.or_eq_true, beq_iff_eq] at hq
  rcases hq with (rfl | rfl) | rfl <;> rfl

/-- A literal that ends before the place is the same in both texts. -/
theorem Ahead.readLiteral (h : Ahead r s t) (hq : isQuote quote = true)
    (hs : readLiteral quote escapes s = some (body, rest)) (hr : r.behind.length < rest.length) :
    ∃ rest', readLiteral quote escapes t = some (body, rest') ∧ Ahead r rest rest' := by
  have happend : s = (body ++ [quote]) ++ rest := by simpa using readLiteral_eq hs
  obtain ⟨rest', rfl, hrest⟩ := Ahead.of_append (happend ▸ h) hr
  have hhead := hrest.head?_eq_some_iff (isSolid_of_isQuote hq)
  refine ⟨rest', ?_, hrest⟩
  rw [List.append_assoc, List.singleton_append]
  exact readLiteral_of_body hs (mt hhead.mpr (head?_ne_of_readLiteral hs))

theorem afterLiteral_escape (quote d : Char) (rest : List Char) :
    afterLiteral quote true ('\\' :: d :: rest) = afterLiteral quote true rest := by
  rw [afterLiteral, readLiteral_escape, Option.map_map]
  rfl

theorem afterLiteral_of_ne (he : (escapes && c == '\\') = false) (hc : c ≠ quote)
    (rest : List Char) :
    afterLiteral quote escapes (c :: rest) = afterLiteral quote escapes rest := by
  rw [afterLiteral, readLiteral_of_ne he hc, Option.map_map]
  rfl

theorem afterLiteral_quote (he : (escapes && c == '\\') = false) (rest : List Char) :
    afterLiteral c escapes (c :: rest) =
      if rest.head? = some c then afterLiteral c escapes rest.tail else rest := by
  rw [afterLiteral, readLiteral_quote he]
  split
  · rw [Option.map_map]
    rfl
  · rfl

theorem afterLiteral_suffix (quote : Char) (escapes : Bool) (s : List Char) :
    afterLiteral quote escapes s <:+ s := by
  rw [afterLiteral]
  cases h : readLiteral quote escapes s with
  | none => exact List.nil_suffix
  | some found =>
    obtain ⟨body, after⟩ := found
    have := readLiteral_eq h
    exact ⟨body ++ [quote], by simpa using this.symm⟩

theorem ne_of_isQuote (hq : isQuote quote = true) (hc : isQuote c = false) : c ≠ quote := by
  rintro rfl
  simp [hc] at hq

/-- A comment without quotes changes nothing in a literal. A backslash at its end escapes the star
of its closing. -/
theorem afterLiteral_comment (hq : isQuote quote = true) {u : List Char}
    (hu : u.any isQuote = false) (escapes : Bool) (s : List Char) :
    afterLiteral quote escapes (u ++ '*' :: '/' :: s) = afterLiteral quote escapes s := by
  have hslash : afterLiteral quote escapes ('/' :: s) = afterLiteral quote escapes s :=
    afterLiteral_of_ne (by cases escapes <;> rfl) (ne_of_isQuote hq rfl) s
  induction hn : u.length using Nat.strongRecOn generalizing u with
  | ind n ih =>
    cases u with
    | nil =>
      rw [List.nil_append,
        afterLiteral_of_ne (by cases escapes <;> rfl) (ne_of_isQuote hq rfl), hslash]
    | cons c u =>
      simp only [List.any_cons, Bool.or_eq_false_iff] at hu
      cases he : escapes && c == '\\' with
      | false =>
        rw [List.cons_append, afterLiteral_of_ne he (ne_of_isQuote hq hu.1)]
        exact ih u.length (by simp at hn; omega) hu.2 rfl
      | true =>
        simp only [Bool.and_eq_true, beq_iff_eq] at he
        obtain ⟨rfl, rfl⟩ := he
        cases u with
        | nil => rw [List.cons_append, List.nil_append, afterLiteral_escape, hslash]
        | cons d u =>
          simp only [List.any_cons, Bool.or_eq_false_iff] at hu
          rw [List.cons_append, List.cons_append, afterLiteral_escape]
          exact ih u.length (by simp at hn; omega) hu.2.2 rfl

section

variable {quote : Char} (hq : isQuote quote = true)
include hq

theorem afterLiteral_before (r : Replacement) (escapes : Bool) :
    afterLiteral quote escapes r.before = afterLiteral quote escapes r.behind := by
  have hblank : (escapes && r.blank == '\\') = false := by
    simp [Replacement.ne_blank (r := r) (c := '\\') rfl]
  exact afterLiteral_of_ne hblank (ne_of_isQuote hq Replacement.isQuote_blank) r.behind

theorem afterLiteral_after (hr : r.Harmless) (escapes : Bool) :
    afterLiteral quote escapes r.after = afterLiteral quote escapes r.behind := by
  rw [Replacement.after, afterLiteral_of_ne (by cases escapes <;> rfl) (ne_of_isQuote hq rfl),
    ← List.cons_append]
  exact afterLiteral_comment hq hr.not_any_isQuote escapes r.behind

/-- What follows a literal, whether the place is in it or behind it. -/
theorem Ahead.afterLiteral (h : Ahead r s t) (hr : r.Harmless) (escapes : Bool) :
    Commented r (afterLiteral quote escapes s) (afterLiteral quote escapes t) := by
  have hbehind : Scan.afterLiteral quote escapes r.behind <:+ r.behind := afterLiteral_suffix ..
  induction hn : s.length using Nat.strongRecOn generalizing s t with
  | ind n ih =>
    cases h with
    | here =>
      rw [afterLiteral_before hq, afterLiteral_after hq hr]
      exact .suffix hbehind
    | @cons s t c h =>
      have hs : s.length < n := by simp at hn; omega
      cases he : escapes && c == '\\' with
      | true =>
        simp only [Bool.and_eq_true, beq_iff_eq] at he
        obtain ⟨rfl, rfl⟩ := he
        cases h with
        | here =>
          -- The backslash escapes the blank, and the slash that opens the comment.
          rw [Replacement.before, afterLiteral_escape, Replacement.after, afterLiteral_escape,
            ← List.cons_append, afterLiteral_comment hq hr.not_any_isQuote]
          exact .suffix hbehind
        | @cons s t d h =>
          rw [afterLiteral_escape, afterLiteral_escape]
          exact ih s.length (by simp at hs; omega) h rfl
      | false =>
        by_cases hc : c = quote
        · subst hc
          have hhead := h.head?_eq_some_iff (isSolid_of_isQuote hq)
          simp only [afterLiteral_quote he, ← hhead]
          split
          next hd =>
            exact ih s.tail.length (by simp; omega) (h.tail hd (isSolid_of_isQuote hq)) rfl
          next => exact .inl h
        · rw [afterLiteral_of_ne he hc, afterLiteral_of_ne he hc]
          exact ih s.length hs h rfl

end

theorem Ahead.pastLiteral (h : Ahead r s t) (hq : isQuote quote = true)
    (hr : (pastLiteral quote s).length ≤ r.behind.length → r.Harmless) :
    Commented r (pastLiteral quote s) (pastLiteral quote t) := by
  by_cases hle : (Scan.pastLiteral quote s).length ≤ r.behind.length
  · rw [pastLiteral_eq, pastLiteral_eq]
    exact h.afterLiteral hq (hr hle) _
  · rw [Scan.pastLiteral] at hle
    cases hs : Scan.readLiteral quote (escapesIn quote) s with
    | none => simp [hs] at hle
    | some found =>
      obtain ⟨body, rest⟩ := found
      obtain ⟨rest', ht, hrest⟩ := h.readLiteral hq hs (by simpa [hs] using hle)
      rw [Scan.pastLiteral, Scan.pastLiteral, hs, ht]
      exact .inl hrest

-- ---------------------------------------------------------------------------
-- Groups
-- ---------------------------------------------------------------------------

theorem pastGroup_append_of_harmless {u : List Char} (hu : u.any marksGroup = false) (depth : Nat)
    (s : List Char) : pastGroup depth (u ++ s) = pastGroup depth s := by
  induction u with
  | nil => rfl
  | cons c u ih =>
    simp only [List.any_cons, marksGroup, Bool.or_eq_false_iff, beq_eq_false_iff_ne] at hu
    obtain ⟨⟨⟨hq, ho⟩, hc⟩, hu⟩ := hu
    simp [pastGroup_cons, hq, ho, hc, ih hu]

theorem pastGroup_before (r : Replacement) (depth : Nat) :
    pastGroup depth r.before = pastGroup depth r.behind :=
  pastGroup_append_of_harmless (u := [r.blank]) (by simp [Replacement.marksGroup_blank]) depth r.behind

theorem pastGroup_after (hr : r.Harmless) (depth : Nat) :
    pastGroup depth r.after = pastGroup depth r.behind := by
  have hmarks {a b : Char} {u : List Char} (h : [a, b].any marksGroup = false) :
      pastGroup depth (a :: b :: u) = pastGroup depth u := pastGroup_append_of_harmless h depth u
  rw [Replacement.after, hmarks rfl, pastGroup_append_of_harmless hr, hmarks rfl]

/-- What follows a group, whether the place is in it or behind it. -/
theorem Ahead.pastGroup (h : Ahead r s t)
    (hr : (pastGroup depth s).length ≤ r.behind.length → r.Harmless) :
    Commented r (pastGroup depth s) (pastGroup depth t) := by
  induction hn : s.length using Nat.strongRecOn generalizing depth s t with
  | ind n ih =>
    cases h with
    | here =>
      rw [pastGroup_before] at hr ⊢
      have hsuffix := pastGroup_suffix depth r.behind
      rw [pastGroup_after (hr hsuffix.length_le)]
      exact .suffix hsuffix
    | @cons s t c h =>
      have hs : s.length < n := by simp at hn; omega
      rw [pastGroup_cons] at hr
      rw [pastGroup_cons, pastGroup_cons]
      split
      next ho => exact ih _ hs h (by simpa [ho] using hr) rfl
      next ho =>
        rw [if_neg ho] at hr
        split
        next hc =>
          rw [if_pos hc] at hr
          cases depth with
          | zero => exact .inl h
          | succ inner => exact ih _ hs h hr rfl
        next hc =>
          rw [if_neg hc] at hr
          split
          next hq =>
            rw [if_pos hq] at hr
            have hlit := (pastLiteral_suffix c s).length_le
            have hgroup := (pastGroup_suffix depth (Scan.pastLiteral c s)).length_le
            -- A group that ends before the place holds only literals that do.
            have hc := h.pastLiteral hq fun hle => hr (Nat.le_trans hgroup hle)
            exact hc.lift (pastGroup_suffix depth) fun ha => ih _ (by omega) ha hr rfl
          next hq => exact ih _ hs h (by simpa [hq] using hr) rfl

-- ---------------------------------------------------------------------------
-- Values
-- ---------------------------------------------------------------------------

theorem Ahead.endsBare_eq (h : Ahead r s t) (stopAtCast : Bool) :
    endsBare stopAtCast s = endsBare stopAtCast t := by
  cases h with
  | here => simp [Replacement.before, Replacement.after, endsBare, r.isBlank_blank]
  | @cons s t c h =>
    have hhead {d : Char} (hd : isSolid d = true) : (s.head? == some d) = (t.head? == some d) := by
      rw [Bool.eq_iff_iff, beq_iff_eq, beq_iff_eq, h.head?_eq_some_iff hd]
    simp only [endsBare, hhead (d := '-') rfl, hhead (d := '*') rfl, hhead (d := ':') rfl]

theorem pastBare_before (r : Replacement) (stopAtCast : Bool) (depth : Nat) :
    pastBare stopAtCast depth r.before =
      if depth = 0 then r.before else pastBare stopAtCast depth r.behind := by
  have hends : endsBare stopAtCast (r.blank :: r.behind) = true := by
    simp [endsBare, r.isBlank_blank]
  rw [Replacement.before, pastBare_cons, hends]
  simp [Replacement.ne_blank (r := r) (c := '(') rfl, Replacement.ne_blank (r := r) (c := ')') rfl,
    Replacement.isQuote_blank]

theorem Ahead.pastBare (h : Ahead r s t)
    (hr : r.behind.length < (pastBare stopAtCast depth s).length) :
    Ahead r (pastBare stopAtCast depth s) (pastBare stopAtCast depth t) := by
  induction hn : s.length using Nat.strongRecOn generalizing depth s t with
  | ind n ih =>
    cases h with
    | here =>
      have hsuffix := (pastBare_suffix stopAtCast depth r.behind).length_le
      rw [pastBare_before] at hr ⊢
      split at hr
      next hd =>
        rw [if_pos hd, Replacement.after, pastBare_cons, hd]
        exact .here
      next => omega
    | @cons s t c h =>
      have hs : s.length < n := by simp at hn; omega
      have hends := (Ahead.cons c h).endsBare_eq stopAtCast
      rw [pastBare_cons] at hr
      rw [pastBare_cons, pastBare_cons, ← hends]
      split
      next => exact .cons c h
      next he =>
        rw [if_neg he] at hr
        split
        next ho => exact ih _ hs h (by simpa [ho] using hr) rfl
        next ho =>
          rw [if_neg ho] at hr
          split
          next hc => exact ih _ hs h (by simpa [hc] using hr) rfl
          next hc =>
            rw [if_neg hc] at hr
            split
            next hq =>
              rw [if_pos hq] at hr
              have hlit := (pastLiteral_suffix c s).length_le
              have hbare := (pastBare_suffix stopAtCast depth (Scan.pastLiteral c s)).length_le
              rcases h.pastLiteral hq fun hle => by omega with ha | ⟨hsuffix, -⟩
              · exact ih _ (by omega) ha hr rfl
              · have := hsuffix.length_le
                omega
            next hq => exact ih _ hs h (by simpa [hq] using hr) rfl

/-- What is read before the place is the same in both texts. -/
theorem Ahead.exists_taken (h : Ahead r s t) (hrest : Ahead r rest rest') (hs : rest <:+ s) :
    ∃ taken, s = taken ++ rest ∧ t = taken ++ rest' := by
  have split {s t : List Char} (h : Ahead r s t) : ∃ u, s = u ++ r.before ∧ t = u ++ r.after := by
    induction h with
    | here => exact ⟨[], rfl, rfl⟩
    | cons c _ ih =>
      obtain ⟨u, rfl, rfl⟩ := ih
      exact ⟨c :: u, rfl, rfl⟩
  obtain ⟨u, rfl, rfl⟩ := split h
  obtain ⟨v, rfl, rfl⟩ := split hrest
  obtain ⟨taken, htaken⟩ := hs
  have hu : taken ++ v = u := List.append_cancel_right (by simpa using htaken)
  exact ⟨taken, by simp [← hu], by simp [← hu]⟩

theorem Ahead.take_eq (h : Ahead r s t) (hrest : Ahead r rest rest') (hs : rest <:+ s) :
    s.take (s.length - rest.length) = t.take (t.length - rest'.length) := by
  obtain ⟨taken, rfl, rfl⟩ := h.exists_taken hrest hs
  simp

end

end TableSchema
