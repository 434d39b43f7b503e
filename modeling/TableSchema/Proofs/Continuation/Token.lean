import TableSchema.Proofs.Continuation.Rule
import TableSchema.Proofs.TokenLaws

/-!
# Tokens of a text that goes on

The rules that read one token are local. Those that take a group whole are not: a group that is open
at the end of the text ends behind it.
-/

namespace TableSchema

open Scan

theorem isInert_of_isWordChar (h : isWordChar c = true) : isInert c = true := by
  have hne (d : Char) (hd : isWordChar d = false) : (c == d) = false := by
    rw [beq_eq_false_iff_ne]
    rintro rfl
    rw [h] at hd
    cases hd
  simp only [isInert, isQuote, bne, hne '\'' (by decide +kernel), hne '"' (by decide +kernel),
    hne '`' (by decide +kernel), hne ';' (by decide +kernel)]
  rfl

-- ---------------------------------------------------------------------------
-- Words and tokens as scans
-- ---------------------------------------------------------------------------

theorem closed_afterWord_iff (h : Plain s) : Closed (afterWord s) ↔ Closed s := by
  rw [afterWord, closed_dropWhile_iff fun _ => isInert_of_isWordChar, closed_skipTrivia_iff h]

theorem afterWord_append (h : Plain s) (hs : Closed s) (x : List Char) :
    afterWord (s ++ x) = afterWord s ++ x := by
  have ha := (closed_afterWord_iff h).mpr hs
  rw [afterWord] at ha
  rw [afterWord, afterWord, skipTrivia_append h hs, dropWhile_append_of_closed ha]

theorem nextWord_append (h : Plain s) (hs : Closed s) (x : List Char) :
    nextWord (s ++ x) = nextWord s := by
  have ha := (closed_afterWord_iff h).mpr hs
  rw [afterWord] at ha
  rw [nextWord, nextWord, skipTrivia_append h hs, takeWhile_append_of_closed ha]

theorem closed_of_pastToken (h : Plain s) (hr : Closed (pastToken s)) : Closed s := by
  rw [← closed_skipTrivia_iff h]
  unfold pastToken at hr
  split at hr
  next hs => exact absurd rfl hr.ne_nil
  next c rest hs =>
    rw [hs]
    split at hr
    next hq => exact .literal hq hr
    next hq =>
      refine .char (by simpa using hq) ?_
      split at hr
      · exact closed_of_pastGroup hr
      split at hr
      · exact (closed_dropWhile_iff fun _ => isInert_of_isWordChar).mp hr
      · exact hr

theorem pastToken_append (h : Plain s) (hr : Closed (pastToken s)) (x : List Char) :
    pastToken (s ++ x) = pastToken s ++ x := by
  have hs := closed_of_pastToken h hr
  unfold pastToken at hr ⊢
  rw [skipTrivia_append h hs]
  cases hskip : skipTrivia s with
  | nil => rw [hskip] at hr; exact absurd rfl hr.ne_nil
  | cons c rest =>
    rw [hskip] at hr
    dsimp only [List.cons_append] at hr ⊢
    split
    next hq => rw [if_pos hq] at hr; exact pastLiteral_append hr x
    next hq =>
      rw [if_neg hq] at hr
      split
      next ho => rw [if_pos ho] at hr; exact pastGroup_append hr x
      next ho =>
        rw [if_neg ho] at hr
        split
        next hw => rw [if_pos hw] at hr; exact dropWhile_append_of_closed hr x
        next => rfl

theorem atItemEnd_append (h : Plain s) (hs : Closed s) (x : List Char) :
    atItemEnd (s ++ x) = atItemEnd s := by
  have hskip := (closed_skipTrivia_iff h).mpr hs
  unfold atItemEnd
  rw [skipTrivia_append h hs]
  cases hc : skipTrivia s with
  | nil => rw [hc] at hskip; exact absurd rfl hskip.ne_nil
  | cons c rest => rfl

namespace Rule

-- ---------------------------------------------------------------------------
-- Words, symbols and names
-- ---------------------------------------------------------------------------

theorem local_keyword {w : String} (hw : isCapital w = true) : (keyword w).Local where
  persists s a rest h hr hrest := by
    rw [read_keyword hw] at hr
    split at hr
    next hn =>
      cases hr
      have hs := (closed_afterWord_iff h).mp hrest
      refine ⟨hs, fun x => ?_⟩
      rw [read_keyword hw, nextWord_append h hs, if_pos hn, afterWord_append h hs]
    next => cases hr
  refuses s h hs hr x := by
    rw [read_keyword hw] at hr ⊢
    rw [nextWord_append h hs]
    split at hr
    next => cases hr
    next hn => rw [if_neg hn]
  keeps s a rest h hs hr := by
    rw [read_keyword hw] at hr
    split at hr
    next => cases hr; exact (closed_afterWord_iff h).mpr hs
    next => cases hr

theorem local_keywords {words : List String} (h : words.all isCapital = true) :
    (keywords words).Local := by
  induction words with
  | nil => exact local_pure ()
  | cons w words ih =>
    rw [List.all_cons, Bool.and_eq_true] at h
    exact (local_keyword h.1).bind fun _ => ih h.2

theorem local_anyKeyword {words : List String} (h : words.all isCapital = true) :
    (anyKeyword words).Local := by
  refine local_firstOf fun p hp => ?_
  obtain ⟨w, hw, rfl⟩ := List.mem_map.mp hp
  exact local_keyword (List.all_eq_true.mp h w hw)

/-- A rule that skips trivia and then reads is local if what it does then is. -/
theorem local_of_skipTrivia {p : Rule α} (f : List Char → Option (α × List Char))
    (hp : ∀ s, p.read s = f (skipTrivia s))
    (persists : ∀ ⦃s a rest⦄, Plain s → f s = some (a, rest) → Closed rest →
      Closed s ∧ ∀ x, f (s ++ x) = some (a, rest ++ x))
    (refuses : ∀ ⦃s⦄, Plain s → Closed s → f s = none → ∀ x, f (s ++ x) = none)
    (keeps : ∀ ⦃s a rest⦄, Plain s → Closed s → f s = some (a, rest) → Closed rest) :
    p.Local where
  persists s a rest h hr hrest := by
    rw [hp] at hr
    obtain ⟨hskip, hr⟩ := persists (h.suffix (skipTrivia_suffix s)) hr hrest
    have hs := (closed_skipTrivia_iff h).mp hskip
    exact ⟨hs, fun x => by rw [hp, skipTrivia_append h hs, hr x]⟩
  refuses s h hs hr x := by
    rw [hp] at hr
    rw [hp, skipTrivia_append h hs]
    exact refuses (h.suffix (skipTrivia_suffix s)) ((closed_skipTrivia_iff h).mpr hs) hr x
  keeps s a rest h hs hr := by
    rw [hp] at hr
    exact keeps (h.suffix (skipTrivia_suffix s)) ((closed_skipTrivia_iff h).mpr hs) hr

theorem local_symbol {text : String} (ht : text.toList.all isInert = true) :
    (symbol text).Local := by
  have hinert := List.all_eq_true.mp ht
  refine local_of_skipTrivia _ (read_symbol text) ?_ ?_ ?_
  · intro s a rest _ hr hrest
    obtain rfl := afterSymbol?_eq_some_iff.mp hr
    refine ⟨(closed_append_iff hinert).mpr hrest, fun x => ?_⟩
    exact afterSymbol?_eq_some_iff.mpr (List.append_assoc ..)
  · intro s _ hs hr x
    rw [afterSymbol?_eq_none_iff] at hr ⊢
    intro hp
    rcases List.prefix_or_prefix_of_prefix hp (List.prefix_append s x) with hp | ⟨u, hu⟩
    · exact hr hp
    · -- The text is a part of the symbol, but no semicolon is.
      have hall : ∀ c ∈ s, isInert c = true := fun c hc =>
        hinert c (by rw [← hu]; exact List.mem_append_left _ hc)
      rw [← List.append_nil s, closed_append_iff hall] at hs
      exact hs.ne_nil rfl
  · intro s a rest _ hs hr
    obtain rfl := afterSymbol?_eq_some_iff.mp hr
    exact (closed_append_iff hinert).mp hs

theorem local_run1 {accepts : Char → Bool} (ha : ∀ c, accepts c = true → isInert c = true) :
    (run1 accepts).Local := by
  refine local_of_skipTrivia
    (fun s => if s.head?.any accepts then some (s.takeWhile accepts, s.dropWhile accepts) else none)
    (read_run1 accepts) ?_ ?_ ?_
  · intro s a rest _ hr hrest
    split at hr
    next hh =>
      cases hr
      refine ⟨(closed_dropWhile_iff ha).mp hrest, fun x => ?_⟩
      have hhead : (s ++ x).head?.any accepts = true := by
        cases s with
        | nil => cases hh
        | cons c s => exact hh
      rw [if_pos hhead, takeWhile_append_of_closed hrest, dropWhile_append_of_closed hrest]
    next => cases hr
  · intro s _ hs hr x
    cases s with
    | nil => exact absurd rfl hs.ne_nil
    | cons c s =>
      split at hr
      next => cases hr
      next hh => exact if_neg hh
  · intro s a rest _ hs hr
    split at hr
    next => cases hr; exact (closed_dropWhile_iff ha).mpr hs
    next => cases hr

theorem local_word : word.Local := (local_run1 fun _ => isInert_of_isWordChar).map _

theorem local_number : number.Local :=
  (local_run1 fun _ hc => isInert_of_isWordChar (isWordChar_of_isDigit hc)).map _

theorem local_quoted {p : Rule α} {opens : Char → Prop} [DecidablePred opens] {escapes : Bool}
    {value : Char → List Char → α} (hq : ∀ c, opens c → isQuote c = true)
    (hp : ∀ s, p.read s = quoted opens escapes value (skipTrivia s)) : p.Local := by
  refine local_of_skipTrivia _ hp ?_ ?_ ?_
  · intro s a rest h hr hrest
    obtain ⟨c, s, body, rfl, hc, hl, ha⟩ := quoted_eq_some_iff.mp hr
    refine ⟨closed_of_readLiteral hl (hq c hc) h.tail.backslash hrest, fun x => ?_⟩
    exact quoted_eq_some_iff.mpr
      ⟨c, s ++ x, body, rfl, hc, readLiteral_append hl hrest.ne_nil x, ha⟩
  · intro s h hs hr x
    cases s with
    | nil => exact absurd rfl hs.ne_nil
    | cons c s =>
      by_cases hc : opens c
      · -- The quote that ends the token is there, so it is read.
        obtain ⟨body, after, hl, -⟩ := hs.readLiteral (hq c hc) h.tail.backslash escapes
        rw [quoted_eq_some_iff.mpr ⟨c, s, body, rfl, hc, hl, rfl⟩] at hr
        cases hr
      · exact if_neg hc
  · intro s a rest h hs hr
    obtain ⟨c, s, body, rfl, hc, hl, -⟩ := quoted_eq_some_iff.mp hr
    obtain ⟨body, after, hl', ha⟩ := hs.readLiteral (hq c hc) h.tail.backslash escapes
    rw [hl] at hl'
    cases hl'
    exact ha

theorem local_quotedName : quotedName.Local :=
  local_quoted (fun c hc => by rcases hc with rfl | rfl <;> rfl) read_quotedName

theorem local_literal (hq : isQuote quote = true) : (literal quote).Local :=
  local_quoted (fun c (hc : c = quote) => hc ▸ hq) (read_literal quote)

theorem local_identifier {extra : List Char} (he : extra.all isInert = true) :
    (identifier extra).Local := by
  refine local_quotedName.orElse ((local_run1 fun c hc => ?_).map _)
  rw [Bool.or_eq_true] at hc
  rcases hc with hc | hc
  · exact isInert_of_isWordChar hc
  · exact List.all_eq_true.mp he c (List.contains_iff_mem.mp hc)

-- ---------------------------------------------------------------------------
-- Text that nothing claims
-- ---------------------------------------------------------------------------

theorem settled_bare (stopAtCast : Bool) : (bare stopAtCast).Settled where
  persists s a rest h hr hrest := by
    rw [read_bare] at hr
    split at hr
    next => cases hr
    next he =>
      cases hr
      have hstart := closed_of_pastBare hrest
      have hs := (closed_skipTrivia_iff h).mp hstart
      refine ⟨hs, fun x => ?_⟩
      rw [read_bare, skipTrivia_append h hs, endsBare_append stopAtCast hstart, if_neg he,
        pastBare_append hrest]
      simp only [List.length_append, Nat.add_sub_add_right]
      rw [List.take_append_of_le_length (Nat.sub_le ..)]
  refuses s h hs hr x := by
    have hstart := (closed_skipTrivia_iff h).mpr hs
    rw [read_bare] at hr
    split at hr
    next he =>
      rw [read_bare, skipTrivia_append h hs, endsBare_append stopAtCast hstart, if_pos he]
    next => cases hr

theorem settled_unclaimed : unclaimed.Settled where
  persists s a rest h hr hrest := by
    rw [read_unclaimed] at hr
    split at hr
    next => cases hr
    next he =>
      cases hr
      have hs := closed_of_pastToken h hrest
      refine ⟨hs, fun x => ?_⟩
      rw [read_unclaimed, atItemEnd_append h hs, if_neg he, pastToken_append h hrest]
  refuses s h hs hr x := by
    rw [read_unclaimed] at hr
    split at hr
    next he => rw [read_unclaimed, atItemEnd_append h hs, if_pos he]
    next => cases hr

theorem settled_restOfItem : restOfItem.Settled := settled_iterate (fun _ => settled_unclaimed) ()

end Rule

end TableSchema
