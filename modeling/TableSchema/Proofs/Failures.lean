import Mathlib.Data.List.Induction
import TableSchema.Proofs.Failures.Rule
import TableSchema.Proofs.Positions

/-!
# Where reading fails

A text that is no statement is reported at the furthest place where something was missing. Every way
in which the grammar gives no value names something, and it looks for what it requires at the next
token. So the error always quotes a token or the end of the text, and what it says was wanted there
was wanted there.
-/

namespace TableSchema

open Scan Unicode

-- ---------------------------------------------------------------------------
-- The grammar
-- ---------------------------------------------------------------------------

open Rule

theorem QualifiedName.explains_rule (extra : List Char) : (QualifiedName.rule extra).Explains :=
  (explains_orMiss _ _).separated.map _

theorem ColumnAttributes.total_rule : ColumnAttributes.rule.Total := by
  intro s
  obtain ⟨progress, rest, h⟩ := exists_read_iterate consumes_clauseOrUnclaimed {} s
  simp [ColumnAttributes.rule, read_map, h]

theorem ColumnDefinition.explains_rule : ColumnDefinition.rule.Explains :=
  (explains_orMiss _ _).bind fun _ => (explains_orMiss _ _).bind fun _ =>
    ColumnAttributes.total_rule.explains.bind fun _ => (total_pure _).explains

namespace Item

theorem explains_rule : rule.Explains := .orElse (.orElse (ColumnDefinition.explains_rule.map _))

theorem explains_round (items : List Item) : (round items).Explains :=
  .ifAhead _ (total_pure _).explains <| explains_rule.bind fun _ =>
    .ifPresent _ (total_pure _).explains (total_pure _).explains

theorem explains_list : list.Explains :=
  (explains_orMiss _ _).bind fun _ => (explains_loop explains_round []).bind fun _ =>
    (explains_orMiss _ _).bind fun _ => (total_pure _).explains

end Item

theorem Statement.explains_rule : Statement.rule.Explains :=
  (explains_orMiss _ _).bind fun _ => (total_present _).explains.bind fun _ =>
    (total_present _).explains.bind fun _ => (explains_orMiss _ _).bind fun _ =>
      (total_present _).explains.bind fun _ => (QualifiedName.explains_rule _).bind fun _ =>
        Item.explains_list.bind fun _ => (total_pure _).explains

-- ---------------------------------------------------------------------------
-- Places and words
-- ---------------------------------------------------------------------------

/-- Neither white space nor a comment begins here: a token does, or the text has ended. -/
def Scan.AtToken (s : List Char) : Prop :=
  s.head?.any isBlank = false ∧ ¬ opensBlock s ∧ ¬ opensLine s

theorem Scan.atToken_of_skipTrivia (h : skipTrivia s = s) : AtToken s := by
  cases s with
  | nil => simp [AtToken, opensBlock, opensLine]
  | cons c rest =>
    -- Each kind of trivia would leave less than the whole text.
    have hshort {r : List Char} (hr : r <:+ rest) : skipTrivia r ≠ c :: rest := by
      intro he
      have := ((skipTrivia_suffix r).trans hr).length_le
      simp only [he, List.length_cons] at this
      omega
    rw [skipTrivia_cons] at h
    split at h
    next => exact absurd h (hshort ((pastBlock_suffix _).trans (List.tail_suffix rest)))
    next hb =>
      split at h
      next => exact absurd h (hshort ((pastLine_suffix _).trans (List.tail_suffix rest)))
      next hl =>
        split at h
        next => exact absurd h (hshort (List.suffix_refl rest))
        next hc => exact ⟨by simpa using hc, hb, hl⟩

theorem Text.head?_wordsAfter {word : List Char} (hw : word ≠ []) (s : List Char) :
    (wordsAfter word s).head? = some (word.reverse ++ s.takeWhile (!isBlank ·)) := by
  induction s generalizing word with
  | nil => simp [wordsAfter, hw]
  | cons c rest ih =>
    by_cases hc : isBlank c
    · simp [wordsAfter, hw, hc]
    · simp [wordsAfter, hc, ih (List.cons_ne_nil c word)]

/-- The first word of a text that begins with a token is all up to the first white space. -/
theorem Text.head?_words (h : AtToken s) :
    (words s).head? = if s = [] then none else some (s.takeWhile (!isBlank ·)) := by
  cases s with
  | nil => rfl
  | cons c rest =>
    have hc : isBlank c = false := by simpa using h.1
    simp [words, wordsAfter, hc, head?_wordsAfter]

theorem Position.ofOffset_eq {text : String} (h : Checked.At text.toList offset rest) :
    ofOffset text offset = ParseError.placeOf text.toList rest := by
  obtain ⟨before, ht, rfl⟩ := h
  rw [ofOffset, ParseError.placeOf, ht, charsWithin_append, Checked.take_length_sub rfl]

namespace ParseError

/-- Something was missing at the furthest place. -/
theorem exists_furthest {misses : List Miss} (hne : ∃ m, m ∈ misses)
    (hs : ∀ m ∈ misses, m.rest <:+ text) : ∃ x, ⟨furthest text misses, x⟩ ∈ misses := by
  induction misses using List.reverseRecOn with
  | nil => simp at hne
  | append_singleton misses last ih =>
    have hlast := hs last (by simp)
    rw [Checked.furthest_append]
    split
    next => exact ⟨last.expected, by simp⟩
    next hfar =>
      by_cases he : misses = []
      · subst he
        have hwhole : last.rest = text := hlast.eq_of_length_le (by simpa [furthest] using hfar)
        exact ⟨last.expected, by simp [furthest, ← hwhole]⟩
      · obtain ⟨x, hx⟩ := ih (List.exists_mem_of_ne_nil _ he)
          fun m hm => hs m (List.mem_append_left _ hm)
        exact ⟨x, List.mem_append_left _ hx⟩

/-- What is wanted at the furthest place is what is missing there. -/
theorem mem_wantedAt_furthest {misses : List Miss} (hs : ∀ m ∈ misses, m.rest <:+ text)
    (x : Expectation) :
    x ∈ wantedAt (furthest text misses) misses ↔ ⟨furthest text misses, x⟩ ∈ misses := by
  rw [Checked.mem_wantedAt]
  constructor
  · rintro ⟨m, hm, hl, rfl⟩
    obtain ⟨y, hy⟩ := exists_furthest ⟨m, hm⟩ hs
    have hsame : m.rest = furthest text misses :=
      (List.suffix_of_suffix_length_le (hs m hm) (hs _ hy) hl.le).eq_of_length hl
    rwa [← hsame]
  · exact fun hm => ⟨_, hm, rfl, rfl⟩

/-- What a message says of the text that is left: the word that it begins with or that there is
none. -/
def foundText (rest : List Char) : String :=
  if rest = [] then "end of input"
  else "'" ++ String.ofList ((rest.takeWhile (!isBlank ·)).take 20) ++ "'"

theorem text_missing (h : AtToken rest) (wanted : List Expectation) :
    (Detail.missing wanted
        ((Text.words rest).head?.map fun word => String.ofList (word.take quotedLength))).text =
      "expected " ++ wantedText wanted ++ ", found " ++ foundText rest := by
  rw [Text.head?_words h, foundText]
  by_cases he : rest = []
  · have hend : ", found end of input" = ", found " ++ "end of input" := rfl
    simp only [he, if_true, Option.map_none, Detail.text, hend, String.append_assoc]
  · have hquote : ", found '" = ", found " ++ "'" := rfl
    simp only [he, if_false, Option.map_some, Detail.text, hquote, quotedLength,
      String.append_assoc]

theorem all_isKeyword_iff (wanted : List Expectation) :
    wanted.all (·.isKeyword) = true ↔
      ∀ x ∈ wanted, x = Expectation.createKeyword ∨ x = Expectation.tableKeyword := by
  rw [List.all_eq_true]
  refine forall₂_congr fun x _ => ?_
  cases x <;> simp [Expectation.isKeyword]

theorem kind_ofMisses (h : AtToken (furthest text misses))
    (hw : wantedAt (furthest text misses) misses ≠ []) :
    (ofMisses text misses).kind =
      if furthest text misses = [] then .unexpectedEof
      else if ∀ x ∈ wantedAt (furthest text misses) misses, x = .createKeyword ∨ x = .tableKeyword
        then .missingClause
      else .syntaxError := by
  have hany : (wantedAt (furthest text misses) misses).isEmpty = false := by simpa using hw
  simp only [ofMisses, Text.head?_words h, hany, ← all_isKeyword_iff]
  by_cases he : furthest text misses = []
  · simp [he]
  · simp [he]

end ParseError

namespace Statement

variable {text : String}

/-- The error of a text that holds no statement quotes the token at which the grammar got furthest,
and asks for exactly what was missing there. -/
theorem error_at_furthest_token (h : rule.read text.toList = none) :
    ∃ (c : Checked.Cursor) (rest : List Char) (e : ParseError),
      Checked.run text.toList program {} = .ok (none, c) ∧ read text = .error e ∧
      Checked.At text.toList c.furthest rest ∧ AtToken rest ∧
      (∀ m ∈ (rule.run text.toList).misses, ∃ p ≤ c.furthest, Checked.At text.toList p m.rest) ∧
      c.expected ≠ [] ∧
      (∀ x, x ∈ c.expected ↔ ⟨rest, x⟩ ∈ (rule.run text.toList).misses) ∧
      e.detail.text =
        "expected " ++ ParseError.wantedText c.expected ++ ", found " ++
          ParseError.foundText rest ∧
      e.position = some (.ofOffset text c.furthest) ∧
      e.kind =
        if rest = [] then .unexpectedEof
        else if ∀ x ∈ c.expected, x = .createKeyword ∨ x = .tableKeyword then .missingClause
        else .syntaxError := by
  obtain ⟨c, r, hrun, hf, -⟩ := Checked.sound_run text.toList program (.start text.toList)
  rw [h] at hrun
  rw [List.nil_append] at hf
  have hsuffix : ∀ m ∈ (rule.run text.toList).misses, m.rest <:+ text.toList :=
    fun m hm => rule.suffix_of_miss hm
  obtain ⟨x, hx⟩ := ParseError.exists_furthest (explains_rule h) hsuffix
  have hwanted := ParseError.mem_wantedAt_furthest hsuffix
  have htoken := atToken_of_skipTrivia (program.atTokens hx)
  have hne := List.ne_nil_of_mem ((hwanted x).mpr hx)
  rw [← hf.wanted] at hwanted hne
  refine ⟨c, _, _, hrun, by rw [read, readChars_eq, h], hf.missing, htoken, fun m hm => ?_, hne,
    hwanted, ?_, ?_, ?_⟩
  · obtain ⟨before, hbefore⟩ := hsuffix m hm
    have hplace : Checked.At text.toList (Checked.bytes before) m.rest :=
      ⟨before, hbefore.symm, rfl⟩
    have hfar := (Checked.length_furthest_le text.toList _).2 m hm
    have hlt := Checked.At.lt_iff hf.missing hplace
    exact ⟨_, by omega, hplace⟩
  · rw [hf.wanted]
    exact ParseError.text_missing htoken _
  · rw [Position.ofOffset_eq hf.missing]
    rfl
  · rw [hf.wanted] at hne ⊢
    exact ParseError.kind_ofMisses htoken hne

/-- An unknown kind of constraint behind a quoted name is no column either. -/
theorem error_at_furthest_token_of_exclusion :
    rule.read "CREATE TABLE t (a int, CONSTRAINT \"x\" EXCLUDE)".toList = none ∧
      ∃ (c : Checked.Cursor) (rest : List Char) (e : ParseError),
        Checked.run "CREATE TABLE t (a int, CONSTRAINT \"x\" EXCLUDE)".toList program {} =
          .ok (none, c) ∧
        read "CREATE TABLE t (a int, CONSTRAINT \"x\" EXCLUDE)" = .error e ∧
        Checked.At "CREATE TABLE t (a int, CONSTRAINT \"x\" EXCLUDE)".toList c.furthest rest ∧
        c.furthest = 38 ∧ rest = "EXCLUDE)".toList ∧ e.position = some ⟨1, 39⟩ := by
  have h : rule.read "CREATE TABLE t (a int, CONSTRAINT \"x\" EXCLUDE)".toList = none := by
    decide +kernel
  obtain ⟨c, rest, e, hrun, hread, hrest, -, -, -, -, -, hposition, -⟩ := error_at_furthest_token h
  have hplace : (Checked.run "CREATE TABLE t (a int, CONSTRAINT \"x\" EXCLUDE)".toList program
      {}).toOption.map (·.2.furthest) = some 38 := by
    decide +kernel
  have hc : c.furthest = 38 := by
    rw [hrun] at hplace
    exact Option.some.inj hplace
  rw [hc] at hrest hposition
  refine ⟨h, c, rest, e, hrun, hread, hc ▸ hrest, hc,
    hrest.inj ⟨"CREATE TABLE t (a int, CONSTRAINT \"x\" ".toList, rfl, rfl⟩, hposition⟩

end Statement

end TableSchema
