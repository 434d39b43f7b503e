import TableSchema.Proofs.LetterCase.Scan
import TableSchema.Proofs.Simulation

/-!
# Tokens and the case of letters

The rules that read one token read alike from texts that differ in the case of letters.
-/

namespace TableSchema

open Scan

theorem sameText_pastToken (h : SameText s t) : SameText (pastToken s) (pastToken t) := by
  have hskip := sameText_skipTrivia h
  unfold pastToken
  generalize skipTrivia s = s' at hskip ⊢
  generalize skipTrivia t = t' at hskip ⊢
  cases hskip with
  | nil => exact .nil
  | @cons c d s t hc hst =>
    simp only [hc.isQuote_eq, hc.eq_iff (x := '(') rfl, hc.isWordChar_eq]
    split
    next hq =>
      rw [eq_of_isQuote hc hq]
      exact sameText_pastLiteral hq hst
    split
    · exact sameText_pastGroup 0 hst
    split
    · exact SameText.dropWhile hst fun _ _ => SameLetter.isWordChar_eq
    · exact hst

theorem atItemEnd_eq (h : SameText s t) : atItemEnd s = atItemEnd t := by
  have hskip := sameText_skipTrivia h
  unfold atItemEnd
  generalize skipTrivia s = s' at hskip ⊢
  generalize skipTrivia t = t' at hskip ⊢
  cases hskip with
  | nil => rfl
  | @cons c d s t hc hst =>
    rw [Bool.eq_iff_iff]
    simp [hc.eq_iff (x := ',') rfl, hc.eq_iff (x := ')') rfl]

theorem startsWord_eq (h : SameText s t) : startsWord s = startsWord t :=
  SameText.head?_any h fun _ _ => SameLetter.isWordChar_eq

theorem afterKeyword?_rel (word : List Char) (h : SameText s t) :
    Option.Rel SameText (afterKeyword? word s) (afterKeyword? word t) := by
  induction word generalizing s t with
  | nil => exact .some h
  | cons k word ih =>
    cases h with
    | nil => exact .none
    | cons hc hs =>
      simp only [afterKeyword?, hc.toUpper_eq]
      split
      · exact ih hs
      · exact .none

namespace Rule

theorem alike_keyword (word : String) : Alike SameText (· = ·) (keyword word) (keyword word) := by
  intro s t h
  refine ⟨?_, .nil⟩
  have hr := afterKeyword?_rel word.toList (sameText_skipTrivia h)
  dsimp only [keyword, ofResult]
  generalize afterKeyword? word.toList (skipTrivia s) = x at hr
  generalize afterKeyword? word.toList (skipTrivia t) = y at hr
  cases hr with
  | none => exact .none
  | some hr =>
    dsimp only
    rw [startsWord_eq hr]
    split
    · exact .none
    · exact .some ⟨rfl, hr⟩

theorem alike_keywords (words : List String) :
    Alike SameText (· = ·) (keywords words) (keywords words) := by
  induction words with
  | nil => exact alike_pure rfl
  | cons word words ih => exact (alike_keyword word).bind fun _ _ _ => ih

theorem alike_anyKeyword (words : List String) :
    Alike SameText (· = ·) (anyKeyword words) (anyKeyword words) :=
  alike_firstOf (List.rel_map (R := Eq) (fun word _ h => h ▸ alike_keyword word)
    (List.forall₂_same.mpr fun _ _ => rfl))

theorem alike_orMiss {p : Rule α} {q : Rule β} (h : Alike SameText R p q)
    (expected : Expectation) : Alike SameText R (p.orMiss expected) (q.orMiss expected) :=
  h.orMiss (fun _ _ => sameText_skipTrivia) expected

theorem isPrefixOf_eq {text : List Char} (hl : text.all (!·.isAlpha) = true) (h : SameText s t) :
    text.isPrefixOf s = text.isPrefixOf t := by
  induction text generalizing s t with
  | nil => rw [List.isPrefixOf_nil_left, List.isPrefixOf_nil_left]
  | cons x text ih =>
    cases h with
    | nil => rfl
    | cons hc hs =>
      simp only [List.all_cons, Bool.and_eq_true, Bool.not_eq_true'] at hl
      rw [List.isPrefixOf_cons_cons, List.isPrefixOf_cons_cons, ih hl.2 hs, Bool.eq_iff_iff]
      simp [eq_comm (a := x), hc.eq_iff hl.1]

/-- Symbols have no letters in them. -/
theorem alike_symbol (text : String) (hl : text.toList.all (!·.isAlpha) = true) :
    Alike SameText (· = ·) (symbol text) (symbol text) := by
  intro s t h
  refine ⟨?_, .nil⟩
  dsimp only [symbol, ofResult]
  rw [isPrefixOf_eq hl (sameText_skipTrivia h)]
  split
  · exact .some ⟨rfl, List.forall₂_drop _ (sameText_skipTrivia h)⟩
  · exact .none

theorem alike_run1 {accepts : Char → Bool}
    (hf : ∀ ⦃c d⦄, SameLetter c d → accepts c = accepts d) :
    Alike SameText SameText (run1 accepts) (run1 accepts) := by
  intro s t h
  refine ⟨?_, .nil⟩
  simp only [run1, ofResult]
  have hskip := sameText_skipTrivia h
  rw [SameText.head?_any hskip hf]
  split
  · exact .some ⟨SameText.takeWhile hskip hf, SameText.dropWhile hskip hf⟩
  · exact .none

theorem alike_word : Alike SameText SameString word word :=
  (alike_run1 fun _ _ => SameLetter.isWordChar_eq).map fun _ _ => SameString.ofList

theorem alike_quotedName : Alike SameText SameString quotedName quotedName := by
  intro s t h
  refine ⟨?_, .nil⟩
  simp only [quotedName, ofResult]
  have hskip := sameText_skipTrivia h
  generalize skipTrivia s = s' at hskip ⊢
  generalize skipTrivia t = t' at hskip ⊢
  cases hskip with
  | nil => exact .none
  | @cons c d s t hc hst =>
    simp only [hc.eq_iff (x := '`') rfl, hc.eq_iff (x := '"') rfl]
    split
    next hd =>
      have hq : isQuote d = true := by rcases hd with rfl | rfl <;> rfl
      obtain rfl := eq_of_isQuote hc hq
      have hr := sameText_readLiteral false (isAlpha_of_isQuote hq) hst
      generalize readLiteral c false s = x at hr
      generalize readLiteral c false t = y at hr
      cases hr with
      | none => exact .none
      | some hr =>
        exact .some ⟨SameString.ofList (sameText_undoubleQuotes (isAlpha_of_isQuote hq) hr.1), hr.2⟩
    · exact .none

theorem alike_identifier (extra : List Char) (he : extra.all (!·.isAlpha) = true) :
    Alike SameText SameString (identifier extra) (identifier extra) := by
  refine alike_quotedName.orElse ((alike_run1 fun c d h => ?_).map fun _ _ => SameString.ofList)
  have hextra : extra.contains c = extra.contains d := by
    rcases h.eq_or_letters with rfl | ⟨hc, hd⟩
    · rfl
    · have hnot {x : Char} (hx : x.isAlpha = true) : x ∉ extra := fun hm => by
        have := List.all_eq_true.mp he x hm
        simp [hx] at this
      simp [hnot hc, hnot hd]
  rw [h.isWordChar_eq, hextra]

theorem alike_literal (quote : Char) (hq : quote.isAlpha = false) :
    Alike SameText SameString (literal quote) (literal quote) := by
  intro s t h
  have hskip := sameText_skipTrivia h
  simp only [literal]
  generalize skipTrivia s = s' at hskip ⊢
  generalize skipTrivia t = t' at hskip ⊢
  cases hskip with
  | nil => exact ⟨.none, .nil⟩
  | @cons c d s t hc hst =>
    simp only [hc.eq_iff hq]
    split
    · have hr := sameText_readLiteral true hq hst
      generalize readLiteral quote true s = x at hr
      generalize readLiteral quote true t = y at hr
      cases hr with
      | none => exact ⟨.none, .cons ⟨.cons hc hst, rfl⟩ .nil⟩
      | some hr => exact ⟨.some ⟨SameString.ofList hr.1, hr.2⟩, .nil⟩
    · exact ⟨.none, .nil⟩

theorem takeWhile_isDigit_eq (h : SameText s t) :
    s.takeWhile Char.isDigit = t.takeWhile Char.isDigit := by
  induction h with
  | nil => rfl
  | cons hc _ ih =>
    rw [List.takeWhile_cons, List.takeWhile_cons, ← hc.isDigit_eq]
    split
    next hd => rw [hc.eq_of_isDigit hd, ih]
    · rfl

theorem alike_number : Alike SameText (· = ·) number number := by
  have hdigits : Alike SameText (· = ·) (run1 Char.isDigit) (run1 Char.isDigit) := by
    intro s t h
    have hskip := sameText_skipTrivia h
    have hf : ∀ ⦃c d⦄, SameLetter c d → c.isDigit = d.isDigit := fun _ _ => SameLetter.isDigit_eq
    refine ⟨?_, .nil⟩
    dsimp only [run1, ofResult]
    rw [SameText.head?_any hskip hf, takeWhile_isDigit_eq hskip]
    split
    · exact .some ⟨rfl, SameText.dropWhile hskip hf⟩
    · exact .none
  exact hdigits.map fun _ _ h => congrArg numberValue h

theorem alike_bare (stopAtCast : Bool) :
    Alike SameText SameString (bare stopAtCast) (bare stopAtCast) := by
  intro s t h
  refine ⟨?_, .nil⟩
  simp only [bare, ofResult]
  have hskip := sameText_skipTrivia h
  have hrest := sameText_pastBare stopAtCast 0 hskip
  simp only [endsBare_eq stopAtCast hskip, hskip.length_eq, hrest.length_eq]
  split
  · exact .none
  · exact .some ⟨SameString.ofList (List.forall₂_take _ hskip), hrest⟩

theorem alike_unclaimed : Alike SameText (· = ·) unclaimed unclaimed := by
  intro s t h
  refine ⟨?_, .nil⟩
  dsimp only [unclaimed, ofResult]
  rw [atItemEnd_eq h]
  split
  · exact .none
  · exact .some ⟨rfl, sameText_pastToken h⟩

theorem alike_restOfItem : Alike SameText (· = ·) restOfItem restOfItem :=
  alike_iterate (fun _ _ _ => alike_unclaimed) rfl

end Rule

end TableSchema
