import TableSchema.Proofs.Failures.Rule
import TableSchema.Proofs.Grammar.Lexeme

/-!
# Names between quotes

A name between quotes is written with its quote doubled. One scan looks for the quote that stands
alone and another takes the contents apart; `readLiteral_eq_some_iff` and `readLiteral_eq_none_iff`
say that together they undo the writing of names and nothing else.
-/

namespace TableSchema

open Rule Scan

-- ---------------------------------------------------------------------------
-- Doubled quotes
-- ---------------------------------------------------------------------------

namespace Scan

variable {quote : Char} {s body rest : List Char}

theorem exists_doubleQuotes_of_readLiteral (h : readLiteral quote false s = some (body, rest)) :
    ∃ name, doubleQuotes quote name = body := by
  fun_induction readLiteral quote false s generalizing body rest with
  | case1 => cases h
  | case2 => cases h
  | case3 c hc => simp at hc
  | case4 => cases h; exact ⟨[], rfl⟩
  | case5 s _ ih =>
    obtain ⟨⟨inner, after⟩, hr, he⟩ := Option.map_eq_some_iff.mp h
    cases he
    obtain ⟨name, rfl⟩ := ih hr
    exact ⟨quote :: name, by simp [doubleQuotes]⟩
  | case6 => cases h; exact ⟨[], rfl⟩
  | case7 c s _ hne ih =>
    obtain ⟨⟨inner, after⟩, hr, he⟩ := Option.map_eq_some_iff.mp h
    cases he
    obtain ⟨name, rfl⟩ := ih hr
    exact ⟨c :: name, by simp [doubleQuotes, hne]⟩

/-- A literal is closed by the first quote that no other one pairs with. -/
theorem readLiteral_eq_some_iff :
    readLiteral quote false s = some (body, rest) ↔
      ∃ name, doubleQuotes quote name = body ∧ s = body ++ quote :: rest ∧
        rest.head? ≠ some quote := by
  constructor
  · intro h
    obtain ⟨name, hn⟩ := exists_doubleQuotes_of_readLiteral h
    exact ⟨name, hn, readLiteral_eq h, head?_ne_of_readLiteral h⟩
  · rintro ⟨name, rfl, rfl, hrest⟩
    exact readLiteral_doubleQuotes quote name hrest

/-- A literal is not closed where all its quotes are in pairs. -/
theorem readLiteral_eq_none_iff :
    readLiteral quote false s = none ↔ ∃ name, doubleQuotes quote name = s := by
  constructor
  · intro h
    fun_induction readLiteral quote false s with
    | case1 => exact ⟨[], rfl⟩
    | case2 c hc => simp at hc
    | case3 c hc => simp at hc
    | case4 => cases h
    | case5 s _ ih =>
      obtain ⟨name, rfl⟩ := ih (Option.map_eq_none_iff.mp h)
      exact ⟨quote :: name, by simp [doubleQuotes]⟩
    | case6 => cases h
    | case7 c s _ hne ih =>
      obtain ⟨name, rfl⟩ := ih (Option.map_eq_none_iff.mp h)
      exact ⟨c :: name, by simp [doubleQuotes, hne]⟩
  · rintro ⟨name, rfl⟩
    induction name with
    | nil => rfl
    | cons c name ih =>
      rw [doubleQuotes]
      split
      next hc =>
        subst hc
        have hplain : (false && c == '\\') = false := rfl
        simp [readLiteral_quote hplain, ih]
      next hc => rw [readLiteral_of_ne rfl hc, ih]; rfl

end Scan

-- ---------------------------------------------------------------------------
-- Identifiers
-- ---------------------------------------------------------------------------

namespace Rule

variable {quote : NameQuote} {extra s tail : List Char}

theorem nameQuote_char (quote : NameQuote) : quote.char = '`' ∨ quote.char = '"' := by
  cases quote <;> simp [NameQuote.char]

theorem not_isWordChar_quote (quote : NameQuote) : isWordChar quote.char = false := by
  cases quote <;> decide +kernel

/-- A run of word characters and of others that are not quotes does not begin with a quote. -/
theorem read_run1_quote (hx : quote.char ∉ extra) (hs : skipTrivia s = quote.char :: tail) :
    (run1 fun c => isWordChar c || extra.contains c).read s = none := by
  simp [read_run1, hs, not_isWordChar_quote, hx]

theorem read_identifier_quote (hx : quote.char ∉ extra) (hs : skipTrivia s = quote.char :: tail) :
    (identifier extra).read s =
      (readLiteral quote.char false tail).map fun x =>
        (String.ofList (undoubleQuotes quote.char x.1), x.2) := by
  rw [identifier, read_orElse, read_map, read_run1_quote hx hs, read_quotedName, hs, quoted,
    if_pos (nameQuote_char quote)]
  exact Option.or_none

theorem read_identifier_eq_some_iff (hx : quote.char ∉ extra)
    (hs : skipTrivia s = quote.char :: tail) :
    (identifier extra).read s = some (name, rest) ↔
      tail = doubleQuotes quote.char name.toList ++ quote.char :: rest ∧
        rest.head? ≠ some quote.char := by
  rw [read_identifier_quote hx hs, Option.map_eq_some_iff]
  constructor
  · rintro ⟨⟨body, rest⟩, h, he⟩
    cases he
    obtain ⟨name, rfl, ht, hrest⟩ := readLiteral_eq_some_iff.mp h
    rw [undoubleQuotes_doubleQuotes, String.toList_ofList]
    exact ⟨ht, hrest⟩
  · rintro ⟨rfl, hrest⟩
    refine ⟨_, readLiteral_doubleQuotes _ _ hrest, ?_⟩
    rw [undoubleQuotes_doubleQuotes, String.ofList_toList]

theorem read_identifier_eq_none_iff (hx : quote.char ∉ extra)
    (hs : skipTrivia s = quote.char :: tail) :
    (identifier extra).read s = none ↔ ∃ name, doubleQuotes quote.char name = tail := by
  rw [read_identifier_quote hx hs, Option.map_eq_none_iff, readLiteral_eq_none_iff]

theorem misses_identifier (extra s : List Char) : ((identifier extra).run s).misses = [] := by
  rw [List.eq_nil_iff_forall_not_mem]
  intro m hm
  rcases mem_misses_orElse.mp hm with hm | ⟨-, hm⟩
  · cases hm
  · rcases mem_misses_bind.mp hm with hm | ⟨_, _, -, hm⟩ <;> cases hm

end Rule

namespace Checked

open Rule

variable {quote : NameQuote} {extra s tail text : List Char} {c : Cursor} {misses : List Miss}

theorem quotedName_none (hf : c.Follows text s misses)
    (hs : skipTrivia s = quote.char :: tail) (h : readLiteral quote.char false tail = none) :
    ∃ c', Step.quotedName text c = .ok (none, c') ∧
      c'.Follows text (quote.char :: tail) misses := by
  obtain ⟨d, hd, hfd⟩ := hf.skipTrivia_eq
  rw [hs] at hfd
  refine ⟨d, ?_, hfd⟩
  simp only [Step.quotedName, hd, ok_bind, hfd.rest_eq, if_pos (nameQuote_char quote),
    literalLength_eq, h]
  rfl

theorem run1_none (accepts : Char → Bool) (hf : c.Follows text s misses)
    (hs : skipTrivia s = d :: tail) (h : accepts d = false) :
    ∃ c', Step.run1 text accepts c = .ok (none, c') ∧ c'.Follows text (d :: tail) misses := by
  obtain ⟨c', hc, hf'⟩ := hf.skipTrivia_eq
  rw [hs] at hf'
  refine ⟨c', ?_, hf'⟩
  simp only [Step.run1, hc, ok_bind, hf'.rest_eq, List.takeWhile_cons, h]
  rfl

theorem run_identifier_none (hx : quote.char ∉ extra) (he : extra.all isSolid = true)
    (hf : c.Follows text s misses) (hs : skipTrivia s = quote.char :: tail)
    (h : readLiteral quote.char false tail = none) :
    ∃ c', run text (Program.identifier extra he) c = .ok (none, c') ∧
      c'.Follows text (quote.char :: tail) misses := by
  have haccepts : (isWordChar quote.char || extra.contains quote.char) = false := by
    simp [not_isWordChar_quote, hx]
  obtain ⟨c₁, hquoted, hf₁⟩ := quotedName_none hf hs h
  -- The second alternative begins where the first one did.
  obtain ⟨c₂, hback, -, hf₂⟩ := hf₁.moveTo_eq hf.place
  obtain ⟨c₃, hbare, hf₃⟩ := run1_none (fun c => isWordChar c || extra.contains c) hf₂ hs haccepts
  refine ⟨c₃, ?_, hf₃⟩
  show (Step.quotedName text).orElse text
    ((Step.run1 text _).bind fun letters => run text (.pure (String.ofList letters))) c = _
  simp only [Step.orElse, hquoted, ok_bind, hback, Step.bind, hbare]
  rfl

/-- A name between quotes is read exactly where it is written with its quote doubled and a quote
that stands alone behind it, and the cursor is then right behind that quote. Where every quote is
one of a pair no name is read, and the cursor passes nothing but what stands before the first one.
The characters that an unquoted name may have in addition are no quotes. -/
theorem run_identifier_quote (quote : NameQuote) (hx : quote.char ∉ extra)
    (he : extra.all isSolid = true) (hs : skipTrivia s = quote.char :: tail) :
    (∀ name rest, (identifier extra).read s = some (name, rest) ↔
      tail = doubleQuotes quote.char name.toList ++ quote.char :: rest ∧
        rest.head? ≠ some quote.char) ∧
    ((identifier extra).read s = none ↔
      ¬∃ name rest, tail = doubleQuotes quote.char name ++ quote.char :: rest ∧
        rest.head? ≠ some quote.char) ∧
    ((identifier extra).read s = none ↔ ∃ name, doubleQuotes quote.char name = tail) ∧
    ∀ text c misses, c.Follows text s misses → ∃ c',
      run text (Program.identifier extra he) c =
        .ok (((identifier extra).read s).map Prod.fst, c') ∧
      c'.Follows text (((identifier extra).read s).elim (quote.char :: tail) Prod.snd) misses := by
  refine ⟨fun name rest => read_identifier_eq_some_iff hx hs, ?_,
    read_identifier_eq_none_iff hx hs, fun text c misses hf => ?_⟩
  · rw [Option.eq_none_iff_forall_ne_some, not_exists]
    constructor
    · rintro h name ⟨rest, ht, hrest⟩
      refine h (String.ofList name, rest) ((read_identifier_eq_some_iff hx hs).mpr ⟨?_, hrest⟩)
      rwa [String.toList_ofList]
    · rintro h ⟨name, rest⟩ hread
      exact h name.toList ⟨rest, (read_identifier_eq_some_iff hx hs).mp hread⟩
  · cases hread : (identifier extra).read s with
    | none =>
      rw [read_identifier_quote hx hs, Option.map_eq_none_iff] at hread
      exact run_identifier_none hx he hf hs hread
    | some x =>
      obtain ⟨c', rest, hc, hf', hrest⟩ := sound_run text (Program.identifier extra he) hf
      have hmisses : ((identifier extra).run s).misses = [] :=
        misses_identifier extra s
      rw [hmisses, List.append_nil, ← hrest x.1 x.2 hread] at hf'
      rw [hread] at hc
      exact ⟨c', hc, hf'⟩

/-- A name with a backtick in it, behind a comment. -/
theorem run_identifier_quote_of_backtick :
    let s := " /* x */ `Größe``n` int".toList
    let tail := "Größe``n` int".toList
    '`' ∉ ['<', '>'] ∧ ['<', '>'].all isSolid = true ∧ skipTrivia s = '`' :: tail ∧
      (identifier ['<', '>']).read s = some ("Größe`n", " int".toList) := by
  intro s tail
  have hx : NameQuote.backtick.char ∉ ['<', '>'] := by decide
  have he : ['<', '>'].all isSolid = true := by decide +kernel
  have hs : skipTrivia s = NameQuote.backtick.char :: tail := by decide +kernel
  exact ⟨hx, he, hs, ((run_identifier_quote .backtick hx he hs).1 _ _).mpr ⟨by decide, by decide⟩⟩

end Checked

end TableSchema
