import Mathlib.Data.List.Forall2
import TableSchema.Token

/-!
# Texts that differ in the case of letters

Letters are those of ASCII here; other characters of two such texts are equal. The classes of
characters that reading goes by do not tell the two cases of a letter apart.
-/

namespace TableSchema

-- ---------------------------------------------------------------------------
-- ASCII letters
-- ---------------------------------------------------------------------------

theorem isUpper_iff {c : Char} : c.isUpper = true ↔ 'A'.val ≤ c.val ∧ c.val ≤ 'Z'.val :=
  decide_eq_true_iff

theorem isLower_iff {c : Char} : c.isLower = true ↔ 'a'.val ≤ c.val ∧ c.val ≤ 'z'.val := by
  refine (Bool.and_eq_true ..).to_iff.trans ?_
  rw [decide_eq_true_iff, decide_eq_true_iff]

theorem isAlpha_iff {c : Char} : c.isAlpha = true ↔ c.isUpper = true ∨ c.isLower = true :=
  (Bool.or_eq_true ..).to_iff

theorem toNat_lt_of_isAlpha {c : Char} (h : c.isAlpha = true) : c.toNat < 128 := by
  rw [isAlpha_iff, isUpper_iff, isLower_iff] at h
  simp only [UInt32.le_iff_toNat_le] at h
  have : c.val.toNat = c.toNat := rfl
  have : 'Z'.val.toNat = 90 := rfl
  have : 'z'.val.toNat = 122 := rfl
  omega

theorem of_isAlpha {P : Char → Prop}
    (h : ∀ n < 128, (Char.ofNat n).isAlpha = true → P (Char.ofNat n)) {c : Char}
    (hc : c.isAlpha = true) : P c := by
  have h := h c.toNat (toNat_lt_of_isAlpha hc)
  rw [Char.ofNat_toNat] at h
  exact h hc

theorem toLower_of_not_isAlpha {c : Char} (h : c.isAlpha = false) : c.toLower = c := by
  have hupper : ¬ c.isUpper = true := fun hu => Bool.eq_false_iff.mp h (isAlpha_iff.mpr (.inl hu))
  rw [isUpper_iff] at hupper
  exact dif_neg hupper

theorem toUpper_of_not_isAlpha {c : Char} (h : c.isAlpha = false) : c.toUpper = c := by
  have hlower : ¬ c.isLower = true := fun hl => Bool.eq_false_iff.mp h (isAlpha_iff.mpr (.inr hl))
  rw [isLower_iff] at hlower
  exact dif_neg hlower

theorem isAlpha_toLower (c : Char) : c.toLower.isAlpha = c.isAlpha := by
  cases hc : c.isAlpha with
  | false => rw [toLower_of_not_isAlpha hc, hc]
  | true => exact of_isAlpha (P := fun c => c.toLower.isAlpha = true) (by decide +kernel) hc

theorem toUpper_toLower (c : Char) : c.toLower.toUpper = c.toUpper := by
  cases hc : c.isAlpha with
  | false => rw [toLower_of_not_isAlpha hc]
  | true => exact of_isAlpha (P := fun c => c.toLower.toUpper = c.toUpper) (by decide +kernel) hc

theorem toLower_toUpper (c : Char) : c.toUpper.toLower = c.toLower := by
  cases hc : c.isAlpha with
  | false => rw [toUpper_of_not_isAlpha hc]
  | true => exact of_isAlpha (P := fun c => c.toUpper.toLower = c.toLower) (by decide +kernel) hc

-- ---------------------------------------------------------------------------
-- Letters in either case
-- ---------------------------------------------------------------------------

/-- Equal, or the two cases of one letter. -/
def SameLetter (c d : Char) : Prop := c.toLower = d.toLower

abbrev SameText : List Char → List Char → Prop := List.Forall₂ SameLetter

def SameString (s t : String) : Prop := SameText s.toList t.toList

instance : DecidableRel SameLetter :=
  fun c d => inferInstanceAs (Decidable (c.toLower = d.toLower))

instance (s t : String) : Decidable (SameString s t) :=
  inferInstanceAs (Decidable (SameText s.toList t.toList))

namespace SameLetter

theorem refl (c : Char) : SameLetter c c := rfl

theorem toUpper_eq (h : SameLetter c d) : c.toUpper = d.toUpper := by
  rw [← toUpper_toLower c, ← toUpper_toLower d, h]

theorem isAlpha_eq (h : SameLetter c d) : c.isAlpha = d.isAlpha := by
  rw [← isAlpha_toLower c, ← isAlpha_toLower d, h]

theorem eq_or_letters (h : SameLetter c d) : c = d ∨ c.isAlpha = true ∧ d.isAlpha = true := by
  cases hc : c.isAlpha with
  | true => exact .inr ⟨rfl, h.isAlpha_eq ▸ hc⟩
  | false =>
    have hd : d.isAlpha = false := h.isAlpha_eq ▸ hc
    exact .inl (by rw [← toLower_of_not_isAlpha hc, ← toLower_of_not_isAlpha hd, h])

/-- What is the same for all letters does not tell cases apart. -/
theorem congr (f : Char → β) (b : β)
    (hf : ∀ n < 128, (Char.ofNat n).isAlpha = true → f (Char.ofNat n) = b) (h : SameLetter c d) :
    f c = f d := by
  rcases h.eq_or_letters with rfl | ⟨hc, hd⟩
  · rfl
  · have hb {x : Char} : x.isAlpha = true → f x = b := of_isAlpha (P := fun x => f x = b) hf
    rw [hb hc, hb hd]

theorem eq_iff {x : Char} (h : SameLetter c d) (hx : x.isAlpha = false) : c = x ↔ d = x := by
  rcases h.eq_or_letters with rfl | ⟨hc, hd⟩
  · rfl
  · constructor
    · rintro rfl; simp [hx] at hc
    · rintro rfl; simp [hx] at hd

theorem isBlank_eq (h : SameLetter c d) : Unicode.isBlank c = Unicode.isBlank d :=
  h.congr _ false (by decide +kernel)

theorem isWordChar_eq (h : SameLetter c d) : isWordChar c = isWordChar d :=
  h.congr _ true (by decide +kernel)

theorem isQuote_eq (h : SameLetter c d) : Scan.isQuote c = Scan.isQuote d :=
  h.congr _ false (by decide +kernel)

theorem isDigit_eq (h : SameLetter c d) : c.isDigit = d.isDigit :=
  h.congr _ false (by decide +kernel)

theorem eq_of_isDigit (h : SameLetter c d) (hc : c.isDigit = true) : c = d := by
  rcases h.eq_or_letters with rfl | ⟨ha, -⟩
  · rfl
  · rw [of_isAlpha (P := fun c => c.isDigit = false) (by decide +kernel) ha] at hc
    cases hc

end SameLetter

namespace SameText

theorem refl (s : List Char) : SameText s s := List.forall₂_same.mpr fun c _ => SameLetter.refl c

theorem head?_eq_iff {x : Char} (h : SameText s t) (hx : x.isAlpha = false) :
    s.head? = some x ↔ t.head? = some x := by
  cases h with
  | nil => rfl
  | cons hc _ => simpa using hc.eq_iff hx

theorem head?_any {f : Char → Bool} (h : SameText s t) (hf : ∀ ⦃c d⦄, SameLetter c d → f c = f d) :
    s.head?.any f = t.head?.any f := by
  cases h with
  | nil => rfl
  | cons hc _ => exact hf hc

theorem tail (h : SameText s t) : SameText s.tail t.tail := by
  cases h with
  | nil => exact .nil
  | cons _ h => exact h

theorem takeWhile {f : Char → Bool} (h : SameText s t)
    (hf : ∀ ⦃c d⦄, SameLetter c d → f c = f d) : SameText (s.takeWhile f) (t.takeWhile f) := by
  induction h with
  | nil => exact .nil
  | cons hc _ ih =>
    rw [List.takeWhile_cons, List.takeWhile_cons, hf hc]
    split
    · exact .cons hc ih
    · exact .nil

theorem dropWhile {f : Char → Bool} (h : SameText s t)
    (hf : ∀ ⦃c d⦄, SameLetter c d → f c = f d) : SameText (s.dropWhile f) (t.dropWhile f) := by
  induction h with
  | nil => exact .nil
  | cons hc hs ih =>
    rw [List.dropWhile_cons, List.dropWhile_cons, hf hc]
    split
    · exact ih
    · exact .cons hc hs

end SameText

namespace SameString

theorem refl (s : String) : SameString s s := SameText.refl s.toList

theorem ofList (h : SameText s t) : SameString (String.ofList s) (String.ofList t) := by
  unfold SameString
  rwa [String.toList_ofList, String.toList_ofList]

theorem append (h : SameString s t) (h' : SameString s' t') : SameString (s ++ s') (t ++ t') := by
  unfold SameString
  rw [String.toList_append, String.toList_append]
  exact List.rel_append h h'

theorem eq_empty_iff (h : SameString s t) : s = "" ↔ t = "" := by
  rw [← String.toList_eq_nil_iff, ← String.toList_eq_nil_iff, ← List.length_eq_zero_iff,
    ← List.length_eq_zero_iff, h.length_eq]

theorem intercalate (sep : String) (h : List.Forall₂ SameString l m) :
    SameString (sep.intercalate l) (sep.intercalate m) := by
  induction h with
  | nil => exact refl _
  | cons hs h ih =>
    cases h with
    | nil => simpa using hs
    | cons hs' h =>
      rw [String.intercalate_cons_cons, String.intercalate_cons_cons]
      exact (hs.append (refl sep)).append ih

end SameString

end TableSchema
