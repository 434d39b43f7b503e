import TableSchema.Proofs.ScanLaws
import TableSchema.Proofs.TokenLaws

/-!
# Laws of reading a statement

The two scans over the text behind a statement, one token at a time, and what they make of the
statement that is read. The first changes nothing for the second: `next?_behind_options`.
-/

namespace TableSchema.Statement

open Rule Scan

theorem pastOptions_of_nil (h : skipTrivia s = []) : pastOptions s = (.endOfText, []) := by
  rw [pastOptions]
  split
  next => rfl
  next hc => rw [h] at hc; cases hc

theorem pastOptions_of_cons (h : skipTrivia s = c :: rest) :
    pastOptions s =
      if c = ';' then (.terminator, rest)
      else if begins s then (.nextStatement, c :: rest)
      else pastOptions (pastToken s) := by
  rw [pastOptions]
  split
  next hn => rw [h] at hn; cases hn
  next hc =>
    rw [h] at hc
    cases hc
    rfl

theorem next?_of_nil (h : skipTrivia s = []) : next? s = none := by
  rw [next?]
  split
  next => rfl
  next hc => rw [h] at hc; cases hc

theorem next?_of_cons (h : skipTrivia s = c :: rest) :
    next? s = if begins s then some (c :: rest) else next? (pastToken s) := by
  rw [next?]
  split
  next hn => rw [h] at hn; cases hn
  next hc =>
    rw [h] at hc
    cases hc
    rfl

theorem readChars_eq (text : List Char) :
    readChars text =
      match rule.read text with
      | none => .error (.ofMisses text (rule.run text).misses)
      | some (statement, rest) =>
        match next? (pastOptions rest).2 with
        | some second => .error (.ofSecondStatement text second)
        | none => .ok statement := by
  rw [readChars, Rule.read]
  rcases rule.run text with ⟨_ | ⟨statement, rest⟩, misses⟩ <;> rfl

-- ---------------------------------------------------------------------------
-- Options and the statements behind them
-- ---------------------------------------------------------------------------

theorem begins_skipTrivia (s : List Char) :
    begins (skipTrivia s) = begins s := by
  show (head.read (skipTrivia s)).isSome = (head.read s).isSome
  rw [head, read_bind, read_bind, read_keyword rfl, read_keyword rfl, nextWord, nextWord,
    afterWord, afterWord, skipTrivia_skipTrivia]

theorem pastOptions_suffix (s : List Char) : (pastOptions s).2 <:+ s := by
  induction hn : s.length using Nat.strongRecOn generalizing s with
  | ind n ih =>
    cases hs : skipTrivia s with
    | nil => rw [pastOptions_of_nil hs]; exact List.nil_suffix
    | cons x rest =>
      have hrest : rest <:+ s := (List.suffix_cons x rest).trans (hs ▸ skipTrivia_suffix s)
      rw [pastOptions_of_cons hs]
      split
      next => exact hrest
      next =>
        split
        next => exact hs ▸ skipTrivia_suffix s
        next =>
          have hshort := length_pastToken hs
          exact (ih _ (hn ▸ hshort) _ rfl).trans ((pastToken_suffix_tail hs).trans hrest)

/-- Where no statement begins the options are not empty. -/
theorem length_pastOptions (hs : skipTrivia s = x :: rest) (hb : begins s = false) :
    (pastOptions s).2.length < s.length := by
  have hrest := (skipTrivia_suffix s).length_le
  rw [hs, List.length_cons] at hrest
  rw [pastOptions_of_cons hs, hb]
  split
  next => exact hrest
  next =>
    have := (pastOptions_suffix (pastToken s)).length_le
    exact Nat.lt_of_le_of_lt this (length_pastToken hs)

theorem begins_of_semicolon (hs : skipTrivia s = ';' :: rest) : begins s = false := by
  have hword : nextWord s = [] := by
    have : isWordChar ';' = false := by decide +kernel
    simp [nextWord, hs, this]
  show (head.read s).isSome = false
  rw [head, read_bind, read_keyword rfl, hword, if_neg (by decide)]
  rfl

/-- Options hold no other statement. -/
theorem next?_behind_options (s : List Char) : next? (pastOptions s).2 = next? s := by
  induction hn : s.length using Nat.strongRecOn generalizing s with
  | ind n ih =>
    cases hs : skipTrivia s with
    | nil => rw [pastOptions_of_nil hs, next?_of_nil hs, next?_of_nil skipTrivia_nil]
    | cons x rest =>
      rw [pastOptions_of_cons hs]
      split
      next hx =>
        subst hx
        have hpast : pastToken s = rest := by
          have : isWordChar ';' = false := by decide +kernel
          simp [pastToken, hs, this, isQuote]
        rw [next?_of_cons hs, begins_of_semicolon hs, hpast]
        rfl
      next =>
        split
        next hb =>
          have hagain : skipTrivia (x :: rest) = x :: rest := by
            rw [← hs, skipTrivia_skipTrivia]
          have hb' : begins (x :: rest) = true := by
            rw [← hs, begins_skipTrivia, hb]
          rw [next?_of_cons hs, next?_of_cons hagain, if_pos hb, if_pos hb']
        next hb =>
          rw [next?_of_cons hs, if_neg hb]
          exact ih _ (hn ▸ length_pastToken hs) _ rfl

end TableSchema.Statement
