import TableSchema.Rule
import TableSchema.Scan.Group
import TableSchema.Scan.Trivia
import TableSchema.Unicode.Alphabetic
import TableSchema.Unicode.Numeric

/-!
# Tokens

The rules that read one token. Trivia before a token is skipped and trivia behind it is not, so a
value taken from the source never ends in a comment.
-/

namespace TableSchema

open Scan

/-- The characters of bare words: letters, digits and numbers of every script, and underscores. -/
def isWordChar (c : Char) : Bool := Unicode.isAlphabetic c || Unicode.isNumeric c || c == '_'

def startsWord (s : List Char) : Bool := s.head?.any isWordChar

/-- The rest of a text that begins with `keyword` in any ASCII case. Keywords are given in capital
letters. -/
def afterKeyword? : (keyword : List Char) → List Char → Option (List Char)
  | [], s => some s
  | _ :: _, [] => none
  | k :: keyword, c :: s => if c.toUpper = k then afterKeyword? keyword s else none

theorem afterKeyword?_suffix {keyword s rest : List Char}
    (h : afterKeyword? keyword s = some rest) :
    rest <:+ s ∧ rest.length + keyword.length = s.length := by
  fun_induction afterKeyword? keyword s with
  | case1 s => cases h; exact ⟨List.suffix_refl _, rfl⟩
  | case2 => simp at h
  | case3 keyword c s ih =>
    have ⟨hs, hl⟩ := ih h
    exact ⟨hs.trans (List.suffix_cons c s), by simp; omega⟩
  | case4 => simp at h

/-- Past one unit of text that nothing else claims: a literal, a group, a word or a character. -/
def pastToken (s : List Char) : List Char :=
  match skipTrivia s with
  | [] => []
  | c :: rest =>
    if isQuote c then pastLiteral c rest
    else if c = '(' then pastGroup 0 rest
    else if isWordChar c then rest.dropWhile isWordChar
    else rest

theorem pastToken_suffix_tail {s rest : List Char} {c : Char} (h : skipTrivia s = c :: rest) :
    pastToken s <:+ rest := by
  simp only [pastToken, h]
  split
  · exact pastLiteral_suffix c rest
  · split
    · exact pastGroup_suffix 0 rest
    · split
      · exact List.dropWhile_suffix _
      · exact List.suffix_refl _

/-- Whether a table item ends here: at a comma, a closing parenthesis or the end of the text. -/
def atItemEnd (s : List Char) : Bool :=
  match skipTrivia s with
  | [] => true
  | c :: _ => c == ',' || c == ')'

namespace Rule

/-- A whole word in any ASCII case. -/
def keyword (word : String) : Rule Unit :=
  ofResult
    (fun s =>
      match afterKeyword? word.toList (skipTrivia s) with
      | some rest => if startsWord rest then none else some ((), rest)
      | none => none)
    fun {s a rest} h => by
      split at h
      next after hk =>
        split at h
        · simp at h
        · cases h; exact (afterKeyword?_suffix hk).1.trans (skipTrivia_suffix s)
      next => simp at h

theorem consumes_keyword {word : String} (hw : word.toList ≠ []) : (keyword word).Consumes := by
  intro s a rest h
  simp only [keyword, ofResult] at h
  split at h
  next after hk =>
    split at h
    · simp at h
    · cases h
      have hl := (afterKeyword?_suffix hk).2
      have hs := (skipTrivia_suffix s).length_le
      have : word.toList.length ≠ 0 := by simpa using hw
      omega
  next => simp at h

/-- Several words in a row, such as `NOT NULL`. -/
def keywords (words : List String) : Rule Unit := words.forM keyword

theorem consumes_keywords {word : String} {words : List String} (hw : word.toList ≠ []) :
    (keywords (word :: words)).Consumes := (consumes_keyword hw).bind

/-- The first of several words that comes next. -/
def anyKeyword (words : List String) : Rule Unit := firstOf (words.map keyword)

/-- Characters exactly as given. -/
def symbol (text : String) : Rule Unit :=
  ofResult
    (fun s =>
      if text.toList.isPrefixOf (skipTrivia s) then
        some ((), (skipTrivia s).drop text.toList.length)
      else none)
    fun {s a rest} h => by
      split at h
      · cases h; exact (List.drop_suffix _ _).trans (skipTrivia_suffix s)
      · simp at h

theorem consumes_symbol {text : String} (ht : text.toList ≠ []) : (symbol text).Consumes := by
  intro s a rest h
  simp only [symbol, ofResult] at h
  split at h
  next hp =>
    cases h
    have hl := (List.isPrefixOf_iff_prefix.mp hp).length_le
    have hs := (skipTrivia_suffix s).length_le
    have : text.toList.length ≠ 0 := by simpa using ht
    simp only [List.length_drop]
    omega
  next => simp at h

/-- A run of the characters that `accepts` names, not empty. -/
def run1 (accepts : Char → Bool) : Rule (List Char) :=
  ofResult
    (fun s =>
      if (skipTrivia s).head?.any accepts then
        some ((skipTrivia s).takeWhile accepts, (skipTrivia s).dropWhile accepts)
      else none)
    fun {s a rest} h => by
      split at h
      · cases h; exact (List.dropWhile_suffix _).trans (skipTrivia_suffix s)
      · simp at h

theorem consumes_run1 (accepts : Char → Bool) : (run1 accepts).Consumes := by
  intro s a rest h
  simp only [run1, ofResult] at h
  split at h
  next hp =>
    cases h
    have hs := (skipTrivia_suffix s).length_le
    cases ht : skipTrivia s with
    | nil => simp [ht] at hp
    | cons c tail =>
      have hc : accepts c = true := by simpa [ht] using hp
      have := (List.dropWhile_suffix accepts (l := tail)).length_le
      simp only [ht, List.length_cons] at hs
      simp only [List.dropWhile_cons, hc, if_true]
      omega
  next => simp at h

/-- A bare word. -/
def word : Rule String := String.ofList <$> run1 isWordChar

theorem consumes_word : word.Consumes := (consumes_run1 _).map _

/-- A name between quotes, in which two closing quotes stand for one. -/
def quotedName : Rule String :=
  ofResult
    (fun s =>
      match skipTrivia s with
      | [] => none
      | c :: rest =>
        if c = '`' ∨ c = '"' then
          (readLiteral c false rest).map fun (body, after) =>
            (String.ofList (undoubleQuotes c body), after)
        else none)
    fun {s a rest} h => by
      split at h
      next => simp at h
      next c tail ht =>
        split at h
        · obtain ⟨⟨body, after⟩, hr, he⟩ := Option.map_eq_some_iff.mp h
          cases he
          have := readLiteral_eq hr
          have hs := skipTrivia_suffix s
          rw [ht, this] at hs
          exact ((List.suffix_cons _ _).trans (List.suffix_append _ _)).trans
            ((List.suffix_cons _ _).trans hs)
        · simp at h

theorem consumes_quotedName : quotedName.Consumes := by
  intro s a rest h
  simp only [quotedName, ofResult] at h
  split at h
  next => simp at h
  next c tail ht =>
    split at h
    · obtain ⟨⟨body, after⟩, hr, he⟩ := Option.map_eq_some_iff.mp h
      cases he
      have hs := (skipTrivia_suffix s).length_le
      rw [ht, readLiteral_eq hr] at hs
      simp only [List.length_cons, List.length_append] at hs ⊢
      omega
    · simp at h

/-- An identifier: a quoted name, or a run of word characters and `extra` ones. -/
def identifier (extra : List Char) : Rule String :=
  quotedName <|> String.ofList <$> run1 fun c => isWordChar c || extra.contains c

theorem consumes_identifier (extra : List Char) : (identifier extra).Consumes :=
  consumes_quotedName.orElse ((consumes_run1 _).map _)

/-- The contents of a literal, as written. A literal that is not closed misses its quote. -/
def literal (quote : Char) : Rule String where
  run s :=
    match skipTrivia s with
    | [] => ⟨none, []⟩
    | c :: rest =>
      if c = quote then
        match readLiteral quote true rest with
        | some (body, after) => ⟨some (String.ofList body, after), []⟩
        | none => ⟨none, [⟨c :: rest, .closingQuote⟩]⟩
      else ⟨none, []⟩
  suffix_of_result {s a rest} h := by
    split at h
    next => simp at h
    next c tail ht =>
      split at h
      · split at h
        next body after hr =>
          cases h
          have hs := skipTrivia_suffix s
          rw [ht, readLiteral_eq hr] at hs
          exact ((List.suffix_cons _ _).trans (List.suffix_append _ _)).trans
            ((List.suffix_cons _ _).trans hs)
        next => simp at h
      · simp at h
  suffix_of_miss {s m} h := by
    split at h
    next => simp at h
    next c tail ht =>
      split at h
      · split at h
        next => simp at h
        next =>
          obtain rfl := List.mem_singleton.mp h
          rw [← ht]
          exact skipTrivia_suffix s
      · simp at h

/-- The largest number kept; larger ones are read as this one. -/
def maxNumber : Nat := 4294967295

/-- The value of a run of decimal digits, at most `maxNumber`. -/
def numberValue (digits : List Char) : Nat :=
  min maxNumber (digits.foldl (fun n d => 10 * n + (d.toNat - '0'.toNat)) 0)

def number : Rule Nat := numberValue <$> run1 Char.isDigit

/-- A value without quotes around the whole of it. With `stopAtCast` it ends before `::`. -/
def bare (stopAtCast : Bool) : Rule String :=
  ofResult
    (fun s =>
      let start := skipTrivia s
      if endsBare stopAtCast start then none
      else
        let rest := pastBare stopAtCast 0 start
        some (String.ofList (start.take (start.length - rest.length)), rest))
    fun {s a rest} h => by
      dsimp only at h
      split at h
      · simp at h
      · cases h; exact (pastBare_suffix ..).trans (skipTrivia_suffix s)

/-- A unit of text inside a table item that nothing else claims. -/
def unclaimed : Rule Unit :=
  ofResult
    (fun s => if atItemEnd s then none else some ((), pastToken s))
    fun {s a rest} h => by
      split at h
      · simp at h
      next he =>
        cases h
        cases ht : skipTrivia s with
        | nil => simp [atItemEnd, ht] at he
        | cons c tail =>
          have hs := skipTrivia_suffix s
          rw [ht] at hs
          exact (pastToken_suffix_tail ht).trans ((List.suffix_cons c tail).trans hs)

theorem consumes_unclaimed : unclaimed.Consumes := by
  intro s a rest h
  simp only [unclaimed, ofResult] at h
  split at h
  · simp at h
  next he =>
    cases h
    cases ht : skipTrivia s with
    | nil => simp [atItemEnd, ht] at he
    | cons c tail =>
      have hs := (skipTrivia_suffix s).length_le
      have := (pastToken_suffix_tail ht).length_le
      rw [ht, List.length_cons] at hs
      omega

/-- The rest of a table item. -/
def restOfItem : Rule Unit := iterate (fun _ => unclaimed) (fun _ => consumes_unclaimed) ()

end Rule

end TableSchema
