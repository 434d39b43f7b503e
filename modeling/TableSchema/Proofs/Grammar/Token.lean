import TableSchema.Proofs.Grammar.Reads

/-!
# Tokens as lexemes

Each rule that reads a token reads its own lexeme, and fails where lexemes of other kinds come next.
What may come next is given as a list that holds the first lexeme.
-/

namespace TableSchema

open Scan

-- ---------------------------------------------------------------------------
-- The word that comes next
-- ---------------------------------------------------------------------------

namespace Lexeme

/-- The word of a lexeme in capital letters. -/
def capitals : Lexeme → List Char
  | keyword w => w.toList
  | word w => w.capitals
  | name .. | symbol _ => []

def mark? : Lexeme → Option Symbol
  | symbol mark => some mark
  | _ => none

def isName : Lexeme → Bool
  | name .. => true
  | _ => false

theorem Spells.eq_word {l : Lexeme} (h : l.Spells u) (hl : l.isWord = true) :
    ∃ v : Word, u = v.letters ∧ v.capitals = l.capitals := by
  cases h with
  | keyword v hv => exact ⟨v, rfl, hv⟩
  | word w => exact ⟨w, rfl, rfl⟩
  | name | symbol => cases hl

theorem Spells.head_not_word {l : Lexeme} (h : l.Spells u) (hl : l.isWord = false) :
    ∃ c s, u = c :: s ∧ isWordChar c = false := by
  cases h with
  | keyword | word => cases hl
  | name quote text => exact ⟨_, _, rfl, by cases quote <;> decide +kernel⟩
  | symbol mark => exact ⟨_, _, rfl, by cases mark <;> decide +kernel⟩

theorem Spells.head_ne_mark {l : Lexeme} {mark : Symbol} (h : l.Spells u)
    (hl : l.mark? ≠ some mark) : ∃ c s, u = c :: s ∧ c ≠ mark.char := by
  have hmark : isWordChar mark.char = false := by cases mark <;> decide +kernel
  cases hw : l.isWord with
  | true =>
    obtain ⟨v, rfl, -⟩ := h.eq_word hw
    obtain ⟨c, s, hv, hc⟩ := v.exists_cons
    refine ⟨c, s, hv, ?_⟩
    rintro rfl
    rw [hmark] at hc
    cases hc
  | false =>
    cases h with
    | keyword | word => cases hw
    | name quote text => exact ⟨_, _, rfl, by cases quote <;> cases mark <;> decide⟩
    | symbol other =>
      refine ⟨_, _, rfl, ?_⟩
      have hne : other ≠ mark := fun he => hl (congrArg some he)
      revert hne
      cases other <;> cases mark <;> decide

theorem Spells.head_ne_quote {l : Lexeme} (h : l.Spells u) (hl : l.isName = false)
    (quote : NameQuote) : ∃ c s, u = c :: s ∧ c ≠ quote.char := by
  have hquote : isWordChar quote.char = false := by cases quote <;> decide +kernel
  cases hw : l.isWord with
  | true =>
    obtain ⟨v, rfl, -⟩ := h.eq_word hw
    obtain ⟨c, s, hv, hc⟩ := v.exists_cons
    refine ⟨c, s, hv, ?_⟩
    rintro rfl
    rw [hquote] at hc
    cases hc
  | false =>
    cases h with
    | keyword | word => cases hw
    | name => cases hl
    | symbol mark => exact ⟨_, _, rfl, by cases mark <;> cases quote <;> decide⟩

end Lexeme

theorem Layout.nextWord_eq (h : Layout (l :: ls) s) (hl : l.isWord = true) :
    ∃ v : Word, v.capitals = l.capitals ∧ l.Spells v.letters ∧ nextWord s = v.letters ∧
      Layout ls (afterWord s) := by
  obtain ⟨u, rest, hs, hu, hends, hrest⟩ := h.skipTrivia_eq
  obtain ⟨v, rfl, hv⟩ := hu.eq_word hl
  obtain ⟨htake, hdrop⟩ := takeWhile_of_not_startsWord (fun _ => id) v.accepted (hends hl)
  refine ⟨v, hv, hu, ?_, ?_⟩
  · rw [nextWord, hs, htake]
  · rw [afterWord, hs, hdrop]; exact hrest

theorem Layout.nextWord_nil (h : Layout (l :: ls) s) (hl : l.isWord = false) :
    nextWord s = [] := by
  obtain ⟨u, rest, hs, hu, -, -⟩ := h.skipTrivia_eq
  obtain ⟨c, u, rfl, hc⟩ := hu.head_not_word hl
  rw [nextWord, hs, List.cons_append, List.takeWhile_cons, if_neg (by simp [hc])]

theorem Trivia.head?_ne_quote (h : Trivia (c :: gap)) (quote : NameQuote) : c ≠ quote.char := by
  cases h with
  | blank hc _ =>
    rintro rfl
    revert hc
    cases quote <;> decide
  | line | block => cases quote <;> decide

/-- What follows a name does not lengthen it. -/
theorem Layout.head?_ne_quote (h : Layout (l :: ls) s) (hl : l.isName = false)
    (quote : NameQuote) : s.head? ≠ some quote.char := by
  cases h with
  | @cons gap _ _ rest _ hgap hu _ _ =>
    cases gap with
    | nil =>
      obtain ⟨c, u, rfl, hc⟩ := hu.head_ne_quote hl quote
      simpa using hc
    | cons c gap => simpa using hgap.head?_ne_quote quote

/-- The first lexeme is one of a list. -/
def Heads (allowed ls : List Lexeme) : Prop := ∃ l ∈ allowed, ls.head? = some l

theorem heads_cons (l : Lexeme) (ls : List Lexeme) : Heads [l] (l :: ls) :=
  ⟨l, List.mem_singleton_self l, rfl⟩

theorem Heads.exists_cons (h : Heads allowed ls) : ∃ l ∈ allowed, ∃ tail, ls = l :: tail := by
  obtain ⟨l, hm, he⟩ := h
  cases ls with
  | nil => cases he
  | cons m ls => cases he; exact ⟨l, hm, ls, rfl⟩

theorem Heads.imp (h : Heads allowed ls) (hl : ∀ l ∈ allowed, l ∈ allowed') :
    Heads allowed' ls := by
  obtain ⟨l, hm, he⟩ := h
  exact ⟨l, hl l hm, he⟩

theorem Heads.append (h : Heads allowed ls) (hseg : seg = [] ∨ Heads extra seg) :
    Heads (extra ++ allowed) (seg ++ ls) := by
  rcases hseg with rfl | ⟨l, hm, he⟩
  · exact h.imp fun l hl => List.mem_append_right _ hl
  · exact ⟨l, List.mem_append_left _ hm, by rw [List.head?_append, he]; rfl⟩

theorem Heads.capitals (h : Heads allowed ls) (hs : Layout ls s) :
    ∃ l ∈ allowed, (nextWord s).map Char.toUpper = l.capitals := by
  obtain ⟨l, hm, ls, rfl⟩ := h.exists_cons
  refine ⟨l, hm, ?_⟩
  cases hl : l.isWord with
  | false =>
    rw [hs.nextWord_nil hl]
    cases l with
    | keyword | word => cases hl
    | name | symbol => rfl
  | true =>
    obtain ⟨v, hv, -, hn, -⟩ := hs.nextWord_eq hl
    rw [hn]
    exact hv

namespace Rule

-- ---------------------------------------------------------------------------
-- Words
-- ---------------------------------------------------------------------------

theorem reads_keyword {w : String} (hw : isCapital w = true) (ls : List Lexeme) :
    (keyword w).Reads (.keyword w :: ls) () ls := by
  intro s h
  obtain ⟨v, hv, -, hn, hrest⟩ := h.nextWord_eq rfl
  have hv : v.letters.map Char.toUpper = w.toList := hv
  refine ⟨afterWord s, ?_, hrest⟩
  rw [read_keyword hw, hn, if_pos hv]

theorem fails_keyword {w : String} (hw : isCapital w = true) (h : Heads allowed ls)
    (ha : allowed.all (fun l => l.capitals != w.toList) = true) : (keyword w).Fails ls := by
  intro s hs
  obtain ⟨l, hm, hn⟩ := h.capitals hs
  rw [read_keyword hw, hn, if_neg]
  simpa using List.all_eq_true.mp ha l hm

theorem reads_keywords {words : List String} (h : words.all isCapital = true)
    (ls : List Lexeme) : (keywords words).Reads (words.map .keyword ++ ls) () ls := by
  induction words with
  | nil => exact reads_pure () ls
  | cons w words ih =>
    rw [List.all_cons, Bool.and_eq_true] at h
    exact (reads_keyword h.1 _).bind (ih h.2)

theorem fails_keywords {w : String} (words : List String) (hw : isCapital w = true)
    (h : Heads allowed ls) (ha : allowed.all (fun l => l.capitals != w.toList) = true) :
    (keywords (w :: words)).Fails ls := (fails_keyword hw h ha).bind _

theorem reads_anyKeyword {words : List String} (h : words.all isCapital = true) (hw : w ∈ words)
    (ls : List Lexeme) : (anyKeyword words).Reads (.keyword w :: ls) () ls := by
  intro s hs
  obtain ⟨v, hv, -, hn, hrest⟩ := hs.nextWord_eq rfl
  refine ⟨afterWord s, ?_, hrest⟩
  rw [read_anyKeyword h, hn, if_pos (List.mem_map.mpr ⟨w, hw, hv.symm⟩)]

theorem fails_anyKeyword {words : List String} (hw : words.all isCapital = true)
    (h : Heads allowed ls)
    (ha : allowed.all (fun l => words.all fun w => l.capitals != w.toList) = true) :
    (anyKeyword words).Fails ls := by
  intro s hs
  obtain ⟨l, hm, hn⟩ := h.capitals hs
  rw [read_anyKeyword hw, hn, if_neg]
  intro hmem
  obtain ⟨w, hw, he⟩ := List.mem_map.mp hmem
  have := List.all_eq_true.mp (List.all_eq_true.mp ha l hm) w hw
  rw [he] at this
  simp at this

theorem reads_run1 {accepts : Char → Bool} {w : Word} (hw : ∀ c ∈ w.letters, accepts c = true)
    (ha : ∀ c, accepts c = true → isWordChar c = true) (ls : List Lexeme) :
    (run1 accepts).Reads (.word w :: ls) w.letters ls := by
  intro s h
  obtain ⟨u, rest, hs, hu, hends, hrest⟩ := h.skipTrivia_eq
  cases hu
  refine ⟨rest, ?_, hrest⟩
  obtain ⟨c, u, hc, -⟩ := w.exists_cons
  have hhead : accepts c = true := hw c (by rw [hc]; exact List.mem_cons_self ..)
  obtain ⟨htake, hdrop⟩ := takeWhile_of_not_startsWord ha hw (hends rfl)
  have hacc : (w.letters ++ rest).head?.any accepts = true := by rw [hc]; exact hhead
  rw [read_run1, hs, if_pos hacc, htake, hdrop]

theorem reads_word (w : Word) (ls : List Lexeme) : word.Reads (.word w :: ls) w.text ls :=
  (reads_run1 w.accepted (fun _ => id) ls).map _

theorem fails_run1 {accepts : Char → Bool} (ha : ∀ c, accepts c = true → isWordChar c = true)
    (h : Heads allowed ls) (hw : allowed.all (fun l => !l.isWord) = true) :
    (run1 accepts).Fails ls := by
  intro s hs
  obtain ⟨l, hm, ls, rfl⟩ := h.exists_cons
  obtain ⟨u, rest, hskip, hu, -, -⟩ := hs.skipTrivia_eq
  have hl : l.isWord = false := by simpa using List.all_eq_true.mp hw l hm
  obtain ⟨c, u, rfl, hc⟩ := hu.head_not_word hl
  rw [read_run1, hskip, if_neg]
  intro hacc
  rw [ha c hacc] at hc
  cases hc

theorem reads_number (d : Digits) (ls : List Lexeme) :
    number.Reads (.word d.word :: ls) d.value ls :=
  (reads_run1 (w := d.word) d.accepted (fun _ => isWordChar_of_isDigit) ls).map _

theorem fails_number (h : Heads allowed ls) (hw : allowed.all (fun l => !l.isWord) = true) :
    number.Fails ls := (fails_run1 (fun _ => isWordChar_of_isDigit) h hw).map _

-- ---------------------------------------------------------------------------
-- Symbols and names
-- ---------------------------------------------------------------------------

theorem reads_symbol {text : String} {mark : Symbol} (ht : text.toList = [mark.char])
    (ls : List Lexeme) : (symbol text).Reads (.symbol mark :: ls) () ls := by
  intro s h
  obtain ⟨u, rest, hs, hu, -, hrest⟩ := h.skipTrivia_eq
  cases hu
  refine ⟨rest, ?_, hrest⟩
  rw [read_symbol, hs, ht]
  exact afterSymbol?_eq_some_iff.mpr rfl

theorem fails_symbol {text : String} (mark : Symbol) (ht : text.toList = [mark.char])
    (h : Heads allowed ls) (ha : allowed.all (fun l => l.mark? != some mark) = true) :
    (symbol text).Fails ls := by
  intro s hs
  obtain ⟨l, hm, ls, rfl⟩ := h.exists_cons
  obtain ⟨u, rest, hskip, hu, -, -⟩ := hs.skipTrivia_eq
  obtain ⟨c, t, rfl, hc⟩ := hu.head_ne_mark (by simpa using List.all_eq_true.mp ha l hm)
  rw [read_symbol, hskip, ht, afterSymbol?_eq_none_iff, List.cons_append, List.cons_prefix_cons]
  rintro ⟨hmark, -⟩
  exact hc hmark.symm

/-- A name ends at its quote where another lexeme comes next. -/
theorem reads_identifier (extra : List Char) (quote : NameQuote) (text : String)
    (h : Heads allowed ls) (ha : allowed.all (fun l => !l.isName) = true) :
    (identifier extra).Reads (.name quote text :: ls) text ls := by
  refine Reads.orElse ?_ _
  intro s hs
  obtain ⟨u, rest, hskip, hu, -, hrest⟩ := hs.skipTrivia_eq
  cases hu
  refine ⟨rest, ?_, hrest⟩
  obtain ⟨l, hm, ls, rfl⟩ := h.exists_cons
  have hl : l.isName = false := by simpa using List.all_eq_true.mp ha l hm
  have hquote : quote.char = '`' ∨ quote.char = '"' := by cases quote <;> decide
  have happend : quote.char :: (doubleQuotes quote.char text.toList ++ [quote.char]) ++ rest =
      quote.char :: (doubleQuotes quote.char text.toList ++ quote.char :: rest) := by simp
  rw [read_quotedName, hskip, happend, quoted_eq_some_iff]
  refine ⟨_, _, _, rfl, hquote, readLiteral_doubleQuotes _ _ (hrest.head?_ne_quote hl quote), ?_⟩
  rw [undoubleQuotes_doubleQuotes, String.ofList_toList]

end Rule

end TableSchema
