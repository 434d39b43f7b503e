import TableSchema.Proofs.LetterCase
import TableSchema.Proofs.RuleLaws

/-!
# Laws of tokens

What the rules that read one token give. A keyword is read by comparing it with the word that comes
next, so two keywords never both come next.
-/

namespace TableSchema

open Scan

/-- The word that comes next, and what follows it. -/
def nextWord (s : List Char) : List Char := (skipTrivia s).takeWhile isWordChar

def afterWord (s : List Char) : List Char := (skipTrivia s).dropWhile isWordChar

/-- The form in which keywords are given. -/
def isCapital (word : String) : Bool := word.toList.all fun c => c.isUpper || c == '_'

theorem isWordChar_of_toUpper {c : Char} (h : (c.toUpper.isUpper || c.toUpper == '_') = true) :
    isWordChar c = true := by
  cases hc : c.isAlpha with
  | true => exact of_isAlpha (P := fun c => isWordChar c = true) (by decide +kernel) hc
  | false =>
    rw [toUpper_of_not_isAlpha hc, Bool.or_eq_true, beq_iff_eq] at h
    rcases h with h | rfl
    · rw [isAlpha_iff.mpr (.inl h)] at hc
      cases hc
    · decide +kernel

theorem isWordChar_of_isDigit {c : Char} (h : c.isDigit = true) : isWordChar c = true := by
  have hn : c.toNat < 128 := by
    simp only [Char.isDigit, Bool.and_eq_true, decide_eq_true_eq, UInt32.le_iff_toNat_le] at h
    have : c.val.toNat = c.toNat := rfl
    have : '9'.val.toNat = 57 := rfl
    omega
  have hall : ∀ n < 128, (Char.ofNat n).isDigit = true → isWordChar (Char.ofNat n) = true := by
    decide +kernel
  have hc := hall c.toNat hn
  rw [Char.ofNat_toNat] at hc
  exact hc h

theorem afterKeyword?_eq_some_iff :
    afterKeyword? word s = some rest ↔ ∃ u, s = u ++ rest ∧ u.map Char.toUpper = word := by
  fun_induction afterKeyword? word s with
  | case1 s => simp [eq_comm]
  | case2 => simp
  | case3 keyword c s ih =>
    rw [ih]
    constructor
    · rintro ⟨u, rfl, rfl⟩
      exact ⟨c :: u, rfl, rfl⟩
    · rintro ⟨_ | ⟨d, u⟩, hu, hk⟩
      · cases hk
      · cases hu
        cases hk
        exact ⟨u, rfl, rfl⟩
  | case4 k keyword c s hk =>
    constructor
    · intro h
      cases h
    · rintro ⟨_ | ⟨d, u⟩, hu, hw⟩
      · cases hw
      · cases hu
        cases hw
        exact absurd rfl hk

theorem startsWord_eq_false_iff : startsWord s = false ↔ s.takeWhile isWordChar = [] := by
  cases s with
  | nil => exact ⟨fun _ => rfl, fun _ => rfl⟩
  | cons c s => cases h : isWordChar c <;> simp [startsWord, h]

/-- Where no word goes on, a run of word characters ends. -/
theorem takeWhile_of_not_startsWord {accepts : Char → Bool}
    (ha : ∀ c, accepts c = true → isWordChar c = true) (hu : ∀ c ∈ u, accepts c = true)
    (hr : startsWord rest = false) :
    (u ++ rest).takeWhile accepts = u ∧ (u ++ rest).dropWhile accepts = rest := by
  have htake : rest.takeWhile accepts = [] := by
    cases rest with
    | nil => rfl
    | cons c rest =>
      have hc : isWordChar c = false := hr
      refine List.takeWhile_cons_of_neg fun hacc => ?_
      rw [ha c hacc] at hc
      cases hc
  have hdrop := List.takeWhile_append_dropWhile (p := accepts) (l := rest)
  rw [htake, List.nil_append] at hdrop
  rw [List.takeWhile_append_of_pos hu, List.dropWhile_append_of_pos hu, htake, hdrop,
    List.append_nil]
  exact ⟨rfl, rfl⟩

/-- What follows a symbol at the start of a text. -/
def afterSymbol? (mark s : List Char) : Option (Unit × List Char) :=
  if mark.isPrefixOf s then some ((), s.drop mark.length) else none

theorem afterSymbol?_eq_some_iff {u : Unit} :
    afterSymbol? mark s = some (u, rest) ↔ s = mark ++ rest := by
  rw [afterSymbol?]
  constructor
  · intro h
    split at h
    next hp =>
      obtain ⟨tail, rfl⟩ := List.isPrefixOf_iff_prefix.mp hp
      cases h
      rw [List.drop_left]
    next => cases h
  · rintro rfl
    rw [if_pos (List.isPrefixOf_iff_prefix.mpr (List.prefix_append ..)), List.drop_left]

theorem afterSymbol?_eq_none_iff : afterSymbol? mark s = none ↔ ¬ mark <+: s := by
  simp [afterSymbol?]

/-- A quoted token at the start of a text. `opens` holds of the quotes it may have. -/
def quoted (opens : Char → Prop) [DecidablePred opens] (escapes : Bool)
    (value : Char → List Char → α) : List Char → Option (α × List Char)
  | [] => none
  | c :: rest =>
    if opens c then (readLiteral c escapes rest).map fun x => (value c x.1, x.2) else none

theorem quoted_eq_some_iff {opens : Char → Prop} [DecidablePred opens]
    {value : Char → List Char → α} :
    quoted opens escapes value s = some (a, rest) ↔
      ∃ c tail body, s = c :: tail ∧ opens c ∧ readLiteral c escapes tail = some (body, rest) ∧
        value c body = a := by
  cases s with
  | nil => simp [quoted]
  | cons c tail =>
    by_cases hc : opens c
    · simp [quoted, hc]
    · simp [quoted, hc]

theorem pastToken_skipTrivia (s : List Char) : pastToken (skipTrivia s) = pastToken s := by
  rw [pastToken, skipTrivia_skipTrivia, ← pastToken]

theorem atItemEnd_skipTrivia (s : List Char) : atItemEnd (skipTrivia s) = atItemEnd s := by
  rw [atItemEnd, skipTrivia_skipTrivia, ← atItemEnd]

namespace Rule

theorem read_keyword {w : String} (hw : isCapital w = true) (s : List Char) :
    (keyword w).read s =
      if (nextWord s).map Char.toUpper = w.toList then some ((), afterWord s) else none := by
  have hword {u : List Char} (hu : u.map Char.toUpper = w.toList) :
      ∀ c ∈ u, isWordChar c = true := by
    intro c hc
    refine isWordChar_of_toUpper (List.all_eq_true.mp hw c.toUpper ?_)
    rw [← hu]
    exact List.mem_map_of_mem hc
  simp only [keyword, ofResult, Rule.read]
  cases hk : afterKeyword? w.toList (skipTrivia s) with
  | some rest =>
    dsimp only
    obtain ⟨u, hs, hu⟩ := afterKeyword?_eq_some_iff.mp hk
    cases hr : startsWord rest with
    | false =>
      obtain ⟨ht, hd⟩ := takeWhile_of_not_startsWord (fun _ => id) (hword hu) hr
      rw [nextWord, afterWord, hs, ht, hd, if_pos hu]
      rfl
    | true =>
      rw [if_pos rfl, if_neg]
      intro hn
      -- The next word is no longer than the keyword, so the rest does not go on with it.
      have hlen : (nextWord s).length = u.length := by
        rw [← List.length_map Char.toUpper, hn, ← hu, List.length_map]
      rw [nextWord, hs, List.takeWhile_append_of_pos (hword hu), List.length_append] at hlen
      rw [startsWord_eq_false_iff.mpr (List.eq_nil_of_length_eq_zero (by omega))] at hr
      cases hr
  | none =>
    rw [if_neg]
    intro hn
    rw [afterKeyword?_eq_some_iff.mpr ⟨nextWord s, List.takeWhile_append_dropWhile.symm, hn⟩] at hk
    cases hk

theorem read_anyKeyword {words : List String} (h : words.all isCapital = true) (s : List Char) :
    (anyKeyword words).read s =
      if (nextWord s).map Char.toUpper ∈ words.map String.toList then some ((), afterWord s)
      else none := by
  induction words with
  | nil => rfl
  | cons w words ih =>
    rw [List.all_cons, Bool.and_eq_true] at h
    have hcons : (anyKeyword (w :: words)).read s =
        ((keyword w).read s).or ((anyKeyword words).read s) := read_firstOf_cons ..
    rw [hcons, read_keyword h.1, ih h.2, List.map_cons]
    simp only [List.mem_cons]
    split
    next hw => rw [if_pos (Or.inl hw)]; rfl
    next hw => simp only [hw, false_or, Option.none_or]

theorem read_symbol (text : String) (s : List Char) :
    (symbol text).read s = afterSymbol? text.toList (skipTrivia s) := rfl

theorem read_run1 (accepts : Char → Bool) (s : List Char) :
    (run1 accepts).read s =
      if (skipTrivia s).head?.any accepts then
        some ((skipTrivia s).takeWhile accepts, (skipTrivia s).dropWhile accepts)
      else none := rfl

theorem read_quotedName (s : List Char) :
    quotedName.read s =
      quoted (fun c => c = '`' ∨ c = '"') false
        (fun c body => String.ofList (undoubleQuotes c body)) (skipTrivia s) := by
  show (match skipTrivia s with
    | [] => none
    | c :: rest =>
      if c = '`' ∨ c = '"' then
        (readLiteral c false rest).map fun x : List Char × List Char =>
          (String.ofList (undoubleQuotes c x.1), x.2)
      else none) = _
  cases skipTrivia s <;> rfl

theorem read_literal (quote : Char) (s : List Char) :
    (literal quote).read s =
      quoted (· = quote) true (fun _ body => String.ofList body) (skipTrivia s) := by
  dsimp only [read, literal]
  cases skipTrivia s with
  | nil => rfl
  | cons c rest =>
    dsimp only [quoted]
    split
    next h => rw [h]; cases readLiteral quote true rest <;> rfl
    next => rfl

theorem read_bare (stopAtCast : Bool) (s : List Char) :
    (bare stopAtCast).read s =
      if endsBare stopAtCast (skipTrivia s) then none
      else
        some (String.ofList ((skipTrivia s).take
          ((skipTrivia s).length - (pastBare stopAtCast 0 (skipTrivia s)).length)),
          pastBare stopAtCast 0 (skipTrivia s)) := rfl

theorem read_unclaimed (s : List Char) :
    unclaimed.read s = if atItemEnd s then none else some ((), pastToken s) := rfl

end Rule

end TableSchema
