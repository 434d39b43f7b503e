import TableSchema.Proofs.Comments.Extent
import TableSchema.Proofs.Grammar.Lexeme

/-!
# A comment in place of a blank

`Ahead r s t`: the texts `s` and `t` are one text before and after a comment is put in place of a
blank. `Commented r s t` says that, or that the place is already behind and the texts are the same.
A scan of both leaves two such texts again, unless it takes the blank as a part of something else.
In a group that is skipped it does so too if the comment has no quotes and no parentheses.
-/

namespace TableSchema

open Rule Scan Unicode

/-- The characters that tell where a group ends. -/
def marksGroup (c : Char) : Bool := isQuote c || c == '(' || c == ')'

/-- A blank with what stands behind it, and the contents of a comment to put in its place. -/
structure Replacement where
  blank : Char
  behind : List Char
  body : List Char
  isBlank_blank : isBlank blank = true
  closed : ¬ ['*', '/'] <:+: body

namespace Replacement

variable {r : Replacement}

def before (r : Replacement) : List Char := r.blank :: r.behind

def after (r : Replacement) : List Char := '/' :: '*' :: (r.body ++ '*' :: '/' :: r.behind)

/-- The comment holds nothing that counts in a group. -/
def Harmless (r : Replacement) : Prop := r.body.any marksGroup = false

instance (r : Replacement) : Decidable r.Harmless := by unfold Harmless; infer_instance

theorem ne_blank (hc : isBlank c = false) : r.blank ≠ c := by
  rintro rfl
  simp [r.isBlank_blank] at hc

theorem marksGroup_blank : marksGroup r.blank = false := by
  have hne {c : Char} (hc : isBlank c = false) : (r.blank == c) = false := by
    rw [beq_eq_false_iff_ne]
    exact ne_blank hc
  simp only [marksGroup, isQuote, Bool.or_eq_false_iff]
  exact ⟨⟨⟨⟨hne rfl, hne rfl⟩, hne rfl⟩, hne rfl⟩, hne rfl⟩

theorem isQuote_of_marksGroup (h : marksGroup c = false) : isQuote c = false := by
  simp only [marksGroup, Bool.or_eq_false_iff] at h
  exact h.1.1

theorem isQuote_blank : isQuote r.blank = false := isQuote_of_marksGroup marksGroup_blank

/-- From its star on the comment has no quotes. -/
theorem Harmless.not_any_isQuote (h : r.Harmless) : ('*' :: r.body).any isQuote = false := by
  have hstar : isQuote '*' = false := rfl
  rw [Harmless, List.any_eq_false] at h
  rw [List.any_cons, hstar, Bool.false_or, List.any_eq_false]
  intro c hc hq
  exact h c hc (by simp [marksGroup, hq])

theorem isSolid_blank : isSolid r.blank = false := by simp [isSolid, r.isBlank_blank]

end Replacement

/-- The place of the blank is still to come. -/
inductive Ahead (r : Replacement) : List Char → List Char → Prop where
  | here : Ahead r r.before r.after
  | cons (c : Char) : Ahead r s t → Ahead r (c :: s) (c :: t)

/-- The place is still to come, or it is behind and the texts are the same. -/
def Commented (r : Replacement) (s t : List Char) : Prop :=
  Ahead r s t ∨ s <:+ r.behind ∧ t = s

section

variable {r : Replacement} {s t : List Char}

theorem Ahead.length_lt (h : Ahead r s t) : r.behind.length < s.length := by
  induction h with
  | here => simp [Replacement.before]
  | cons c _ ih => exact Nat.lt_succ_of_lt ih

/-- The heads are the same, but at the place itself. -/
theorem Ahead.head?_eq (h : Ahead r s t) : s.head? = t.head? ∨ s = r.before ∧ t = r.after := by
  cases h with
  | here => exact .inr ⟨rfl, rfl⟩
  | cons => exact .inl rfl

theorem Ahead.head?_eq_some_iff (h : Ahead r s t) (hd : isSolid d = true) :
    s.head? = some d ↔ t.head? = some d := by
  rcases h.head?_eq with he | ⟨rfl, rfl⟩
  · rw [he]
  · simp only [Replacement.before, Replacement.after, List.head?_cons, Option.some.injEq]
    constructor
    · rintro rfl
      simp [Replacement.isSolid_blank] at hd
    · rintro rfl
      simp [isSolid] at hd

theorem Ahead.head?_any (h : Ahead r s t) (hf : ∀ c, f c = true → isSolid c = true) :
    s.head?.any f = t.head?.any f := by
  have iff (u : List Char) : u.head?.any f = true ↔ ∃ d, u.head? = some d ∧ f d = true := by
    simp [Option.any_eq_true]
  rw [Bool.eq_iff_iff, iff, iff]
  constructor
  · rintro ⟨d, hd, hfd⟩
    exact ⟨d, (h.head?_eq_some_iff (hf d hfd)).mp hd, hfd⟩
  · rintro ⟨d, hd, hfd⟩
    exact ⟨d, (h.head?_eq_some_iff (hf d hfd)).mpr hd, hfd⟩

theorem Ahead.tail (h : Ahead r s t) (hs : s.head? = some d) (hd : isSolid d = true) :
    Ahead r s.tail t.tail := by
  cases h with
  | here =>
    obtain rfl : r.blank = d := by simpa [Replacement.before] using hs
    simp [Replacement.isSolid_blank] at hd
  | cons _ h => exact h

/-- What stands before a rest that has the place in it is the same in both texts. -/
theorem Ahead.of_append (h : Ahead r (u ++ rest) t) (hr : r.behind.length < rest.length) :
    ∃ rest', t = u ++ rest' ∧ Ahead r rest rest' := by
  induction u generalizing t with
  | nil => exact ⟨t, rfl, h⟩
  | cons c u ih =>
    generalize hs : c :: u ++ rest = s at h
    cases h with
    | here =>
      have := congrArg List.length hs
      simp [Replacement.before] at this
      omega
    | cons d h =>
      cases hs
      obtain ⟨rest', rfl, hrest⟩ := ih h
      exact ⟨rest', rfl, hrest⟩

theorem Commented.suffix {u : List Char} (hu : u <:+ r.behind) : Commented r u u := .inr ⟨hu, rfl⟩

/-- What holds of a scan while the place is ahead holds of it everywhere. -/
theorem Commented.lift {f : List Char → List Char} (hf : ∀ u, f u <:+ u) (h : Commented r s t)
    (ha : Ahead r s t → Commented r (f s) (f t)) : Commented r (f s) (f t) := by
  rcases h with h | ⟨hs, rfl⟩
  · exact ha h
  · exact .suffix ((hf _).trans hs)

-- ---------------------------------------------------------------------------
-- Trivia
-- ---------------------------------------------------------------------------

theorem skipTrivia_before (r : Replacement) : skipTrivia r.before = skipTrivia r.behind :=
  skipTrivia_append_of_trivia (.blank r.isBlank_blank .nil) r.behind

theorem skipTrivia_after (r : Replacement) : skipTrivia r.after = skipTrivia r.behind := by
  have := skipTrivia_append_of_trivia (.block r.closed .nil) r.behind
  simpa [Replacement.after] using this

theorem pastBlock_before (r : Replacement) : pastBlock r.before = pastBlock r.behind := by
  rw [Replacement.before, pastBlock_cons, if_neg]
  rintro ⟨h, -⟩
  exact Replacement.ne_blank rfl h

theorem length_pastLine_before (r : Replacement) :
    (pastLine r.before).length ≤ r.behind.length := by
  rw [Replacement.before, pastLine]
  split
  · exact Nat.le_refl _
  · exact (pastLine_suffix _).length_le

theorem Ahead.pastLine (h : Ahead r s t) (hr : r.behind.length < (pastLine s).length) :
    Ahead r (pastLine s) (pastLine t) := by
  induction h with
  | here => exact absurd (length_pastLine_before r) (Nat.not_le_of_lt hr)
  | cons c h ih =>
    simp only [Scan.pastLine] at hr ⊢
    split
    next => exact h
    next hc => exact ih (by simpa [hc] using hr)

theorem Ahead.pastBlock (h : Ahead r s t) (hr : r.behind.length < (pastBlock s).length) :
    Ahead r (pastBlock s) (pastBlock t) := by
  have hshort : ¬ r.behind.length < (Scan.pastBlock r.before).length := by
    rw [pastBlock_before]
    exact Nat.not_lt_of_le (pastBlock_suffix _).length_le
  induction h with
  | here => exact absurd hr hshort
  | cons c h ih =>
    rw [pastBlock_cons] at hr
    rw [pastBlock_cons, pastBlock_cons]
    rcases h.head?_eq with he | ⟨rfl, rfl⟩
    · rw [← he]
      split
      next hc =>
        cases h with
        | here => exact absurd (Option.some.inj hc.2) (Replacement.ne_blank rfl)
        | cons _ h => exact h
      next hc => exact ih (by simpa [hc] using hr)
    · -- The blank does not end the comment, so the comment takes it.
      rw [if_neg fun hc => Replacement.ne_blank rfl (Option.some.inj hc.2)] at hr
      exact absurd hr hshort

theorem Ahead.opensBlock_iff (h : Ahead r s t) (c : Char) :
    opensBlock (c :: s) ↔ opensBlock (c :: t) := by
  rw [opensBlock_cons, opensBlock_cons, h.head?_eq_some_iff rfl]

theorem Ahead.opensLine_iff (h : Ahead r s t) (c : Char) :
    opensLine (c :: s) ↔ opensLine (c :: t) := by
  rw [opensLine_cons, opensLine_cons, h.head?_eq_some_iff rfl]

theorem Ahead.skipTrivia (h : Ahead r s t) (hc : ∀ e ∈ comments s, ¬ e.covers r.behind) :
    Commented r (skipTrivia s) (skipTrivia t) := by
  induction hn : s.length using Nat.strongRecOn generalizing s t with
  | ind n ih =>
    cases h with
    | here =>
      rw [skipTrivia_before, skipTrivia_after]
      exact .suffix (skipTrivia_suffix _)
    | @cons s t c h =>
      have hahead : r.behind.length < (c :: s).length := (Ahead.cons c h).length_lt
      rw [comments] at hc
      simp only [skipTrivia_cons, ← h.opensBlock_iff c, ← h.opensLine_iff c]
      split
      next hb =>
        rw [if_pos hb, List.forall_mem_cons] at hc
        have hlen := (pastBlock_suffix s.tail).length_le
        refine ih _ ?_ ((h.tail (opensBlock_cons.mp hb).2 rfl).pastBlock ?_) hc.2 rfl
        · simp at hlen hn; omega
        · exact Nat.lt_of_not_le fun hle => hc.1 ⟨hle, hahead⟩
      next hb =>
        rw [if_neg hb] at hc
        split
        next hl =>
          rw [if_pos hl, List.forall_mem_cons] at hc
          have hlen := (pastLine_suffix s.tail).length_le
          refine ih _ ?_ ((h.tail (opensLine_cons.mp hl).2 rfl).pastLine ?_) hc.2 rfl
          · simp at hlen hn; omega
          · exact Nat.lt_of_not_le fun hle => hc.1 ⟨hle, hahead⟩
        next hl =>
          rw [if_neg hl] at hc
          split
          next hk => exact ih _ (by simp at hn; omega) h (by simpa [hk] using hc) rfl
          next => exact .inl (.cons c h)

end

end TableSchema
