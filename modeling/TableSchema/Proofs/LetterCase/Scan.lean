import TableSchema.Proofs.LetterCase
import TableSchema.Proofs.ScanLaws

/-!
# Scans and the case of letters

No scan tells texts apart that differ in the case of letters: both runs stop at the same place.
-/

namespace TableSchema.Scan

open Unicode

theorem sameText_pastLine (h : SameText s t) : SameText (pastLine s) (pastLine t) := by
  induction h with
  | nil => exact .nil
  | cons hc hs ih =>
    simp only [pastLine, hc.eq_iff (x := '\n') rfl]
    split
    · exact hs
    · exact ih

theorem sameText_pastBlock (h : SameText s t) : SameText (pastBlock s) (pastBlock t) := by
  induction h with
  | nil => exact .nil
  | cons hc hs ih =>
    simp only [pastBlock_cons, hc.eq_iff (x := '*') rfl, SameText.head?_eq_iff hs (x := '/') rfl]
    split
    · exact SameText.tail hs
    · exact ih

theorem sameText_skipTrivia (h : SameText s t) : SameText (skipTrivia s) (skipTrivia t) := by
  induction hn : s.length using Nat.strongRecOn generalizing s t with
  | ind n ih =>
    cases h with
    | nil => rw [skipTrivia_nil]; exact .nil
    | @cons c d s t hc hs =>
      have hlt {rest : List Char} (hr : rest <:+ s) : rest.length < n := by
        have := hr.length_le
        simp only [List.length_cons] at hn
        omega
      simp only [skipTrivia_cons, opensBlock_cons, opensLine_cons, hc.eq_iff (x := '/') rfl,
        hc.eq_iff (x := '-') rfl, SameText.head?_eq_iff hs (x := '*') rfl,
        SameText.head?_eq_iff hs (x := '-') rfl, hc.isBlank_eq]
      split
      · refine ih _ (hlt ?_) (sameText_pastBlock (SameText.tail hs)) rfl
        exact (pastBlock_suffix _).trans (List.tail_suffix _)
      split
      · refine ih _ (hlt ?_) (sameText_pastLine (SameText.tail hs)) rfl
        exact (pastLine_suffix _).trans (List.tail_suffix _)
      split
      · exact ih _ (hlt (List.suffix_refl _)) hs rfl
      · exact .cons hc hs

/-- A literal is split into the same contents and the same rest. -/
theorem sameText_readLiteral {quote : Char} (escapes : Bool) (hq : quote.isAlpha = false)
    (h : SameText s t) :
    Option.Rel (fun p q => SameText p.1 q.1 ∧ SameText p.2 q.2) (readLiteral quote escapes s)
      (readLiteral quote escapes t) := by
  induction hn : s.length using Nat.strongRecOn generalizing s t with
  | ind n ih =>
    cases h with
    | nil => exact .none
    | @cons c d s t hc hs =>
      have hrest {s' t' : List Char} {f g : List Char → List Char} (hl : s'.length < n)
          (hst : SameText s' t') (hfg : ∀ ⦃b b'⦄, SameText b b' → SameText (f b) (g b')) :
          Option.Rel (fun p q => SameText p.1 q.1 ∧ SameText p.2 q.2)
            ((readLiteral quote escapes s').map fun found => (f found.1, found.2))
            ((readLiteral quote escapes t').map fun found => (g found.1, found.2)) := by
        have hr := ih _ hl hst rfl
        generalize readLiteral quote escapes s' = x at hr
        generalize readLiteral quote escapes t' = y at hr
        cases hr with
        | none => exact .none
        | some hr => exact .some ⟨hfg hr.1, hr.2⟩
      have hescape : (escapes && c == '\\') = (escapes && d == '\\') := by
        rw [Bool.eq_iff_iff]; simp [hc.eq_iff (x := '\\') rfl]
      simp only [List.length_cons] at hn
      cases hs with
      | nil =>
        simp only [readLiteral, hescape, hc.eq_iff hq]
        split
        · exact .none
        split
        · exact .some ⟨.nil, .nil⟩
        · exact .none
      | cons hc' hs =>
        simp only [List.length_cons] at hn
        simp only [readLiteral, hescape, hc.eq_iff hq, hc'.eq_iff hq]
        have hpair := hrest (by omega) hs fun _ _ hb => .cons hc (.cons hc' hb)
        split
        · exact hpair
        split
        · split
          · exact hpair
          · exact .some ⟨.nil, .cons hc' hs⟩
        · exact hrest (by simp; omega) (.cons hc' hs) fun _ _ hb => .cons hc hb

theorem isAlpha_of_isQuote {c : Char} (h : isQuote c = true) : c.isAlpha = false := by
  simp only [isQuote, Bool.or_eq_true, beq_iff_eq] at h
  rcases h with (rfl | rfl) | rfl <;> rfl

theorem sameText_pastLiteral {quote : Char} (hq : isQuote quote = true) (h : SameText s t) :
    SameText (pastLiteral quote s) (pastLiteral quote t) := by
  have hr := sameText_readLiteral (escapesIn quote) (isAlpha_of_isQuote hq) h
  unfold pastLiteral
  generalize readLiteral quote (escapesIn quote) s = x at hr
  generalize readLiteral quote (escapesIn quote) t = y at hr
  cases hr with
  | none => exact .nil
  | some hr => exact hr.2

/-- A quote is no letter, so both runs have the same one. -/
theorem eq_of_isQuote (h : SameLetter c d) (hq : isQuote d = true) : c = d := by
  rcases h.eq_or_letters with rfl | ⟨-, hd⟩
  · rfl
  · rw [isAlpha_of_isQuote hq] at hd; cases hd

theorem sameText_pastGroup (depth : Nat) (h : SameText s t) :
    SameText (pastGroup depth s) (pastGroup depth t) := by
  induction hn : s.length using Nat.strongRecOn generalizing depth s t with
  | ind n ih =>
    cases h with
    | nil => rw [pastGroup]; exact .nil
    | @cons c d s t hc hs =>
      simp only [List.length_cons] at hn
      have hlt : s.length < n := by omega
      have hliteral (hq : isQuote d = true) (depth : Nat) :
          SameText (pastGroup depth (pastLiteral c s)) (pastGroup depth (pastLiteral d t)) := by
        rw [eq_of_isQuote hc hq]
        have := (pastLiteral_suffix d s).length_le
        exact ih _ (by omega) _ (sameText_pastLiteral hq hs) rfl
      cases depth <;>
        simp only [pastGroup, hc.eq_iff (x := '(') rfl, hc.eq_iff (x := ')') rfl,
          hc.isQuote_eq] <;>
        split
      case zero.isFalse =>
        split
        · exact hs
        split
        next hq => exact hliteral hq 0
        · exact ih _ hlt _ hs rfl
      case succ.isFalse inner _ =>
        split
        · exact ih _ hlt _ hs rfl
        split
        next hq => exact hliteral hq (inner + 1)
        · exact ih _ hlt _ hs rfl
      all_goals exact ih _ hlt _ hs rfl

theorem endsBare_eq (stopAtCast : Bool) (h : SameText s t) :
    endsBare stopAtCast s = endsBare stopAtCast t := by
  cases h with
  | nil => rfl
  | cons hc hs =>
    rw [Bool.eq_iff_iff]
    simp [endsBare, hc.isBlank_eq, hc.eq_iff (x := ',') rfl, hc.eq_iff (x := ')') rfl,
      hc.eq_iff (x := '-') rfl, hc.eq_iff (x := '/') rfl, hc.eq_iff (x := ':') rfl,
      SameText.head?_eq_iff hs (x := '-') rfl, SameText.head?_eq_iff hs (x := '*') rfl,
      SameText.head?_eq_iff hs (x := ':') rfl]

theorem sameText_pastBare (stopAtCast : Bool) (depth : Nat) (h : SameText s t) :
    SameText (pastBare stopAtCast depth s) (pastBare stopAtCast depth t) := by
  induction hn : s.length using Nat.strongRecOn generalizing depth s t with
  | ind n ih =>
    cases h with
    | nil => rw [pastBare]; exact .nil
    | @cons c d s t hc hs =>
      have hends := endsBare_eq stopAtCast (.cons hc hs : SameText (c :: s) (d :: t))
      simp only [List.length_cons] at hn
      have hlt : s.length < n := by omega
      have hliteral (hq : isQuote d = true) (depth : Nat) :
          SameText (pastBare stopAtCast depth (pastLiteral c s))
            (pastBare stopAtCast depth (pastLiteral d t)) := by
        rw [eq_of_isQuote hc hq]
        have := (pastLiteral_suffix d s).length_le
        exact ih _ (by omega) _ (sameText_pastLiteral hq hs) rfl
      cases depth with
      | zero =>
        simp only [pastBare, hends, hc.eq_iff (x := '(') rfl, hc.isQuote_eq]
        split
        · exact .cons hc hs
        split
        · exact ih _ hlt _ hs rfl
        split
        next hq => exact hliteral hq 0
        · exact ih _ hlt _ hs rfl
      | succ inner =>
        simp only [pastBare, hc.eq_iff (x := '(') rfl, hc.eq_iff (x := ')') rfl, hc.isQuote_eq]
        split
        · exact ih _ hlt _ hs rfl
        split
        · exact ih _ hlt _ hs rfl
        split
        next hq => exact hliteral hq (inner + 1)
        · exact ih _ hlt _ hs rfl

theorem sameText_undoubleQuotes {quote : Char} (hq : quote.isAlpha = false) (h : SameText s t) :
    SameText (undoubleQuotes quote s) (undoubleQuotes quote t) := by
  induction hn : s.length using Nat.strongRecOn generalizing s t with
  | ind n ih =>
    cases h with
    | nil => exact .nil
    | cons hc hs =>
      cases hs with
      | nil => exact .cons hc .nil
      | cons hc' hs =>
        simp only [undoubleQuotes, hc.eq_iff hq, hc'.eq_iff hq]
        simp only [List.length_cons] at hn
        split
        · exact .cons hc (ih _ (by omega) hs rfl)
        · exact .cons hc (ih _ (by simp; omega) (.cons hc' hs) rfl)

end TableSchema.Scan
