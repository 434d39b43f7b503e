import TableSchema.Proofs.Grammar.Description
import TableSchema.Proofs.Grammar.Token

/-!
# Columns as they are described

The rules of types and of column attributes read back the lexemes of a description. What a rule may
leave out it tells by the lexeme that comes next, so each part is read before a list of lexemes with
which the parts behind it may begin.
-/

namespace TableSchema

open Rule

/-- What may follow an item of a table. -/
def itemEnds : List Lexeme := [.symbol .comma, .symbol .closeParenthesis]

def keyHeads : List Lexeme := [.keyword "PRIMARY", .keyword "UNIQUE"] ++ itemEnds

def attributeHeads : List Lexeme := [.keyword "NOT"] ++ keyHeads

def bracketHeads : List Lexeme := [.symbol .openBracket] ++ attributeHeads

def flagHeads : List Lexeme := [.keyword "UNSIGNED", .keyword "ZEROFILL"] ++ bracketHeads

def lengthHeads : List Lexeme := [.symbol .openParenthesis] ++ flagHeads

-- ---------------------------------------------------------------------------
-- Types
-- ---------------------------------------------------------------------------

namespace TypeSpec

theorem fails_modifier (h : Heads allowed ls)
    (ha : allowed.all (fun l => modifiers.all fun m => l.capitals != (m.headD "").toList) = true) :
    modifier.Fails ls := by
  refine fails_firstOf fun p hp => ?_
  obtain ⟨words, hw, rfl⟩ := List.mem_map.mp hp
  have hcapital : modifiers.all (fun m => m.all isCapital && !m.isEmpty) = true := rfl
  have hwords := List.all_eq_true.mp hcapital words hw
  cases words with
  | nil => cases hwords
  | cons w words =>
    rw [Bool.and_eq_true, List.all_cons, Bool.and_eq_true] at hwords
    refine (fails_keywords words hwords.1.1 h ?_).seqRight _
    exact List.all_eq_true.mpr fun l hl =>
      List.all_eq_true.mp (List.all_eq_true.mp ha l hl) (w :: words) hw

theorem reads_modifier (hm : m ∈ modifiers) (ls : List Lexeme) :
    modifier.Reads (keywordLexemes m ++ ls) m ls := by
  have hread (h : m.all isCapital = true) :
      (keywords m *> pure m).Reads (keywordLexemes m ++ ls) m ls :=
    (reads_keywords h ls).seqRight (reads_pure m ls)
  simp only [modifiers, List.mem_cons, List.not_mem_nil, or_false] at hm
  rcases hm with rfl | rfl | rfl | rfl | rfl
  · exact (hread rfl).orElse _
  · refine Fails.firstOf ((fails_keywords _ rfl (heads_cons _ _) rfl).seqRight _) ?_
    exact (hread rfl).orElse _
  · refine Fails.firstOf ((fails_keywords _ rfl (heads_cons _ _) rfl).seqRight _) ?_
    refine Fails.firstOf (Fails.seqRight _ ?_) ((hread rfl).orElse _)
    exact (reads_keyword rfl _).bind_fails (fails_keywords _ rfl (heads_cons _ _) rfl)
  · refine Fails.firstOf ((fails_keywords _ rfl (heads_cons _ _) rfl).seqRight _) ?_
    refine Fails.firstOf ((fails_keywords _ rfl (heads_cons _ _) rfl).seqRight _) ?_
    refine Fails.firstOf ((fails_keywords _ rfl (heads_cons _ _) rfl).seqRight _) ?_
    exact (hread rfl).orElse _
  · refine Fails.firstOf ((fails_keywords _ rfl (heads_cons _ _) rfl).seqRight _) ?_
    refine Fails.firstOf ((fails_keywords _ rfl (heads_cons _ _) rfl).seqRight _) ?_
    refine Fails.firstOf ((fails_keywords _ rfl (heads_cons _ _) rfl).seqRight _) ?_
    refine Fails.firstOf ((fails_keywords _ rfl (heads_cons _ _) rfl).seqRight _) ?_
    exact (hread rfl).orElse _

theorem reads_extend (ms : List { m // m ∈ modifiers }) (words : List String)
    (h : modifier.Fails ls) :
    (extend words).Reads (ms.flatMap (keywordLexemes ·.val) ++ ls)
      (words ++ ms.flatMap (·.val)) ls := by
  induction ms generalizing words with
  | nil =>
    rw [List.flatMap_nil, List.flatMap_nil, List.append_nil]
    exact Fails.iterate (p := fun words => (words ++ ·) <$> modifier) (h.map _)
  | cons m ms ih =>
    rw [List.flatMap_cons, List.flatMap_cons, List.append_assoc, ← List.append_assoc words]
    exact Reads.iterate (p := fun words => (words ++ ·) <$> modifier)
      ((reads_modifier m.property _).map _) (ih (words ++ m.val))

theorem fails_lengthGroup (h : Heads allowed ls)
    (ha : allowed.all (fun l => l.mark? != some .openParenthesis) = true) :
    lengthGroup.Fails ls := (fails_symbol .openParenthesis rfl h ha).bind _

theorem reads_numberLexeme (d : LengthDescription) (ls : List Lexeme) :
    (symbol "*" *> pure Length.any <|> Length.value <$> number).Reads (d.numberLexeme :: ls)
      d.number ls := by
  rw [LengthDescription.numberLexeme, LengthDescription.number]
  cases d.length with
  | none => exact ((reads_symbol rfl ls).seqRight (reads_pure _ ls)).orElse _
  | some digits =>
    exact ((fails_symbol .star rfl (heads_cons _ _) rfl).seqRight _).orElse
      ((reads_number digits ls).map _)

theorem reads_scaleLexemes (d : LengthDescription) (ls : List Lexeme) :
    (ifPresent (symbol ",") (option number) (pure none)).Reads
      (d.scaleLexemes ++ .symbol .closeParenthesis :: ls) (d.scale.map Digits.value)
      (.symbol .closeParenthesis :: ls) := by
  rw [LengthDescription.scaleLexemes]
  cases d.scale with
  | none => exact (fails_symbol .comma rfl (heads_cons _ _) rfl).ifPresent _ (reads_pure _ _)
  | some digits => exact (reads_symbol rfl _).ifPresent (reads_number digits _).option _

theorem reads_lengthGroup (d : LengthDescription) (ls : List Lexeme) :
    lengthGroup.Reads (d.lexemes ++ ls) d.value ls := by
  have hlexemes : d.lexemes ++ ls = .symbol .openParenthesis :: d.numberLexeme ::
      (d.scaleLexemes ++ .symbol .closeParenthesis :: ls) := by simp [LengthDescription.lexemes]
  rw [hlexemes]
  refine (reads_symbol rfl _).bind ((reads_numberLexeme d _).bind ?_)
  refine (reads_scaleLexemes d ls).bind ?_
  refine (fails_anyKeyword rfl (heads_cons _ _) rfl).present.bind ?_
  exact (reads_symbol rfl ls).bind (reads_pure _ ls)

theorem fails_flag (type : TypeSpec) (h : Heads bracketHeads ls) : (flag type).Fails ls := by
  rw [flag]
  refine Fails.orElse_fails ?_ ?_
  · split
    · exact fails_never ls
    · exact (fails_keyword rfl h rfl).seqRight _
  · split
    · exact fails_never ls
    · exact (fails_keyword rfl h rfl).seqRight _

def hasFlag (type : TypeSpec) : TypeFlag → Bool
  | .unsigned => type.unsigned
  | .zerofill => type.zerofill

def addFlag (type : TypeSpec) : TypeFlag → TypeSpec
  | .unsigned => { type with unsigned := true }
  | .zerofill => { type with zerofill := true }

theorem reads_flag (type : TypeSpec) (f : TypeFlag) (h : type.hasFlag f = false)
    (ls : List Lexeme) : (flag type).Reads (.keyword f.keyword :: ls) (type.addFlag f) ls := by
  rw [flag]
  cases f with
  | unsigned =>
    have h : type.unsigned = false := h
    rw [h]
    exact ((reads_keyword rfl ls).seqRight (reads_pure _ ls)).orElse _
  | zerofill =>
    have h : type.zerofill = false := h
    rw [h]
    refine Fails.orElse ?_ ((reads_keyword rfl ls).seqRight (reads_pure _ ls))
    split
    · exact fails_never _
    · exact (fails_keyword rfl (heads_cons _ _) rfl).seqRight _

theorem reads_flags (type : TypeSpec) (flags : List TypeFlag) (hnodup : flags.Nodup)
    (hnew : ∀ f ∈ flags, type.hasFlag f = false) (h : Heads bracketHeads ls) :
    (iterate flag consumes_flag type).Reads (flags.map (.keyword ·.keyword) ++ ls)
      (flags.foldl addFlag type) ls := by
  induction flags generalizing type with
  | nil => exact (fails_flag type h).iterate
  | cons f flags ih =>
    rw [List.nodup_cons] at hnodup
    refine Reads.iterate (reads_flag type f (hnew f (List.mem_cons_self ..)) _)
      (ih _ hnodup.2 fun g hg => ?_)
    have hne : g ≠ f := fun he => hnodup.1 (he ▸ hg)
    have hg := hnew g (List.mem_cons_of_mem _ hg)
    cases f <;> cases g <;> first | exact absurd rfl hne | exact hg

theorem reads_bracket (ls : List Lexeme) :
    bracket.Reads (.symbol .openBracket :: .symbol .closeBracket :: ls) () ls := by
  refine (reads_symbol rfl _).bind ?_
  exact (fails_number (heads_cons _ _) rfl).option.bind (reads_symbol rfl ls)

theorem reads_brackets (n dimensions : Nat) (h : Heads attributeHeads ls) :
    (iterate (fun n => (fun _ => n + 1) <$> bracket) (fun _ => consumes_bracket.map _) n).Reads
      ((List.replicate dimensions [.symbol .openBracket, .symbol .closeBracket]).flatten ++ ls)
      (n + dimensions) ls := by
  induction dimensions generalizing n with
  | zero =>
    exact Fails.iterate (p := fun n => (fun _ => n + 1) <$> bracket)
      (((fails_symbol .openBracket rfl h rfl).bind _).map _)
  | succ dimensions ih =>
    have hn : n + (dimensions + 1) = n + 1 + dimensions := by omega
    rw [hn, List.replicate_succ, List.flatten_cons]
    exact Reads.iterate (p := fun n => (fun _ => n + 1) <$> bracket) ((reads_bracket _).map _)
      (ih (n + 1))

theorem foldl_addFlag (type : TypeSpec) (flags : List TypeFlag) :
    flags.foldl addFlag type =
      { type with
        unsigned := type.unsigned || flags.contains .unsigned
        zerofill := type.zerofill || flags.contains .zerofill } := by
  induction flags generalizing type with
  | nil => simp
  | cons f flags ih =>
    rw [List.foldl_cons, ih]
    cases f <;> simp [addFlag]

end TypeSpec

namespace TypeDescription

theorem heads_brackets (d : TypeDescription) (h : Heads attributeHeads ls) :
    Heads bracketHeads (d.bracketLexemes ++ ls) := by
  refine h.append ?_
  rw [bracketLexemes]
  cases d.dimensions with
  | zero => exact .inl rfl
  | succ n => exact .inr ⟨_, List.mem_cons_self .., rfl⟩

theorem heads_flags (d : TypeDescription) (h : Heads bracketHeads ls) :
    Heads flagHeads (d.flagLexemes ++ ls) := by
  refine h.append ?_
  rw [flagLexemes]
  cases d.flags with
  | nil => exact .inl rfl
  | cons f flags =>
    refine .inr ⟨.keyword f.keyword, ?_, rfl⟩
    cases f
    · exact List.mem_cons_self ..
    · exact List.mem_cons_of_mem _ (List.mem_cons_self ..)

theorem heads_length (d : TypeDescription) (h : Heads flagHeads ls) :
    Heads lengthHeads (d.lengthLexemes ++ ls) := by
  refine h.append ?_
  rw [lengthLexemes]
  cases d.length with
  | none => exact .inl rfl
  | some length => exact .inr ⟨_, List.mem_cons_self .., rfl⟩

end TypeDescription

namespace TypeSpec

theorem reads_length (d : TypeDescription) (h : Heads flagHeads ls) :
    (option lengthGroup).Reads (d.lengthLexemes ++ ls) (d.length.map (·.value)) ls := by
  rw [TypeDescription.lengthLexemes]
  cases d.length with
  | none => exact (fails_lengthGroup h rfl).option
  | some length => exact (reads_lengthGroup length ls).option

/-- Nothing extends the words once more. -/
theorem reads_extendBehind (group : Option (Length × Option Nat)) (words : List String)
    (h : Heads flagHeads ls) : (extendBehind group words).Reads ls words ls := by
  rw [extendBehind]
  split
  · simpa using reads_extend [] words (fails_modifier h rfl)
  · exact reads_pure _ _

theorem type_eq (d : TypeDescription) :
    { d.flags.foldl addFlag
        { words := d.type.words
          length := (d.length.map (·.value)).map (·.1)
          scale := (d.length.map (·.value)).bind (·.2) } with
      dimensions := 0 + d.dimensions } = d.type := by
  rw [foldl_addFlag]
  simp [TypeDescription.type, LengthDescription.value, Option.bind_map, Function.comp_def]

theorem reads_rule (d : TypeDescription) (h : Heads attributeHeads ls) :
    rule.Reads (d.lexemes ++ ls) d.type ls := by
  have hbracket := d.heads_brackets h
  have hflag := d.heads_flags hbracket
  have hlength := d.heads_length hflag
  simp only [TypeDescription.lexemes, List.cons_append, List.append_assoc]
  refine (reads_word d.word _).bind ?_
  refine (reads_extend d.modifiers _ (fails_modifier hlength rfl)).bind ?_
  refine (reads_length d hflag).bind ?_
  refine (reads_extendBehind _ d.type.words hflag).bind ?_
  refine (reads_flags _ d.flags d.nodup (fun f _ => by cases f <;> rfl) hbracket).bind ?_
  exact (reads_brackets 0 d.dimensions h).bind (reads_pure_of_eq (type_eq d) ls)

end TypeSpec

-- ---------------------------------------------------------------------------
-- Attributes
-- ---------------------------------------------------------------------------

namespace Attribute

/-- The words with which a clause of a kind may begin. -/
def Kind.words : Kind → List String
  | nullability => ["NOT", "NULL"]
  | autoIncrement => ["AUTO_INCREMENT", "AUTOINCREMENT"]
  | key => ["PRIMARY", "UNIQUE"]
  | defaultValue => ["DEFAULT"]
  | comment => ["COMMENT"]
  | encoding => ["ENCODE"]
  | distKey => ["DISTKEY"]
  | sortKey => ["SORTKEY"]
  | characterSet => ["CHARACTER", "CHARSET"]

/-- A clause begins with one of the words of its kind. -/
theorem read_eq_none {kind : Kind}
    (h : ∀ w ∈ kind.words, (nextWord s).map Char.toUpper ≠ w.toList) :
    (rule kind).read s = none := by
  have hkeyword {w : String} (hw : w ∈ kind.words) (hcapital : isCapital w = true) :
      (keyword w).read s = none := by rw [read_keyword hcapital, if_neg (h w hw)]
  have hkeywords {w : String} (words : List String) (hw : w ∈ kind.words)
      (hcapital : isCapital w = true) : (keywords (w :: words)).read s = none := by
    show (keyword w >>= fun _ => keywords words).read s = none
    rw [read_bind, hkeyword hw hcapital]
    rfl
  cases kind with
  | nullability =>
    rw [rule, read_orElse, read_seqRight, read_seqRight, hkeywords _ (by decide) rfl,
      hkeyword (by decide) rfl]
    rfl
  | autoIncrement =>
    rw [rule, read_seqRight, read_anyKeyword rfl, if_neg]
    · rfl
    · intro hm
      obtain ⟨w, hw, he⟩ := List.mem_map.mp hm
      exact h w hw he.symm
  | key =>
    rw [rule, read_seqLeft, read_orElse, read_seqRight, read_seqRight, hkeyword (by decide) rfl,
      hkeyword (by decide) rfl]
    rfl
  | defaultValue | comment | encoding | distKey | sortKey =>
    rw [rule, read_seqRight, hkeyword (by decide) rfl]
    rfl
  | characterSet =>
    rw [rule, read_bind, read_orElse, hkeywords _ (by decide) rfl, hkeyword (by decide) rfl]
    rfl

theorem fails_rule (kind : Kind) (h : Heads allowed ls)
    (ha : allowed.all (fun l => kind.words.all fun w => l.capitals != w.toList) = true) :
    (rule kind).Fails ls := by
  intro s hs
  obtain ⟨l, hm, hn⟩ := h.capitals hs
  refine read_eq_none fun w hw => ?_
  rw [hn]
  simpa using List.all_eq_true.mp (List.all_eq_true.mp ha l hm) w hw

end Attribute

theorem fails_unclaimed (h : Heads itemEnds ls) : unclaimed.Fails ls := by
  intro s hs
  obtain ⟨l, hm, ls, rfl⟩ := h.exists_cons
  obtain ⟨u, rest, hskip, hu, -, -⟩ := hs.skipTrivia_eq
  have hend : atItemEnd s = true := by
    simp only [itemEnds, List.mem_cons, List.not_mem_nil, or_false] at hm
    rcases hm with rfl | rfl <;> cases hu <;> rw [atItemEnd, hskip] <;> rfl
  rw [read_unclaimed, if_pos hend]

theorem reads_restOfItem (h : Heads itemEnds ls) : restOfItem.Reads ls () ls :=
  (fails_unclaimed h).iterate

namespace ColumnAttributes

theorem reads_end (progress : Progress) (h : Heads itemEnds ls) :
    (iterate clauseOrUnclaimed consumes_clauseOrUnclaimed progress).Reads ls progress ls := by
  refine Fails.iterate (((fails_firstOf fun p hp => ?_).map _).orElse_fails
    ((fails_unclaimed h).seqRight _))
  obtain ⟨kind, -, rfl⟩ := List.mem_map.mp hp
  refine Attribute.fails_rule kind h ?_
  cases kind <;> rfl

theorem reads_clause (attributes : ColumnAttributes) (before after : List Attribute.Kind)
    (hb : ∀ kind ∈ before, (Attribute.rule kind).Fails ls)
    (hk : (Attribute.rule kind).Reads ls a ms) :
    (clauseOrUnclaimed ⟨attributes, before ++ kind :: after⟩).Reads ls
      ⟨attributes.record a, (before ++ kind :: after).erase a.kind⟩ ms := by
  refine Reads.orElse (Reads.map _ ?_) _
  rw [List.map_append, List.map_cons]
  refine reads_firstOf (fun p hp => ?_) hk _
  obtain ⟨kind, hkind, rfl⟩ := List.mem_map.mp hp
  exact hb kind hkind

theorem reads_key (marker : KeyMarker) (h : Heads itemEnds ls) :
    (Attribute.rule .key).Reads (keywordLexemes marker.keywords ++ ls) (.key marker) ls := by
  cases marker with
  | primary =>
    exact (((reads_keyword rfl _).seqRight (reads_pure _ _)).orElse _).seqLeft
      (reads_keyword rfl ls).present
  | unique =>
    exact (((fails_keyword rfl (heads_cons _ _) rfl).seqRight _).orElse
      ((reads_keyword rfl ls).seqRight (reads_pure _ _))).seqLeft (fails_keyword rfl h rfl).present

/-- The key is read behind a nullability or without one. -/
theorem reads_keyLexemes (attributes : ColumnAttributes) (key : Option KeyMarker)
    (before after : List Attribute.Kind) (hattributes : attributes.key = none)
    (hb : ∀ kind ∈ before, kind ∈ [Attribute.Kind.nullability, .autoIncrement])
    (h : Heads itemEnds ls) :
    ∃ progress, progress.attributes = { attributes with key } ∧
      (iterate clauseOrUnclaimed consumes_clauseOrUnclaimed
        ⟨attributes, before ++ .key :: after⟩).Reads
        (keywordLexemes (key.elim [] KeyMarker.keywords) ++ ls) progress ls := by
  cases key with
  | none => exact ⟨_, by rw [← hattributes], reads_end _ h⟩
  | some marker =>
    have hheads : Heads [.keyword "PRIMARY", .keyword "UNIQUE"]
        (keywordLexemes marker.keywords ++ ls) := by
      cases marker
      · exact ⟨_, List.mem_cons_self .., rfl⟩
      · exact ⟨_, List.mem_cons_of_mem _ (List.mem_cons_self ..), rfl⟩
    have hfails : ∀ kind ∈ before,
        (Attribute.rule kind).Fails (keywordLexemes marker.keywords ++ ls) := by
      intro kind hkind
      refine Attribute.fails_rule kind hheads ?_
      have hkind := hb kind hkind
      simp only [List.mem_cons, List.not_mem_nil, or_false] at hkind
      rcases hkind with rfl | rfl <;> rfl
    have hclause := reads_clause attributes before after hfails (reads_key marker h)
    exact ⟨_, rfl, hclause.iterate (reads_end _ h)⟩

theorem heads_keyLexemes (key : Option KeyMarker) (h : Heads itemEnds ls) :
    Heads keyHeads (keywordLexemes (key.elim [] KeyMarker.keywords) ++ ls) := by
  refine h.append ?_
  cases key with
  | none => exact .inl rfl
  | some marker =>
    cases marker
    · exact .inr ⟨_, List.mem_cons_self .., rfl⟩
    · exact .inr ⟨_, List.mem_cons_of_mem _ (List.mem_cons_self ..), rfl⟩

theorem reads_rule (notNull : Bool) (key : Option KeyMarker) (h : Heads itemEnds ls) :
    rule.Reads
      (lexemesIf notNull ["NOT", "NULL"] ++ (keywordLexemes (key.elim [] KeyMarker.keywords) ++ ls))
      { nullability := if notNull then some .notNull else none, key } ls := by
  have hread (progress : Progress) (hp : progress.attributes =
        { nullability := if notNull then some .notNull else none, key })
      {ms : List Lexeme}
      (hi : (iterate clauseOrUnclaimed consumes_clauseOrUnclaimed {}).Reads ms progress ls) :
      rule.Reads ms { nullability := if notNull then some .notNull else none, key } ls := by
    rw [← hp]
    exact hi.map fun progress : Progress => progress.attributes
  cases notNull with
  | false =>
    obtain ⟨progress, hp, hi⟩ := reads_keyLexemes {} key [.nullability, .autoIncrement]
      [.defaultValue, .comment, .encoding, .distKey, .sortKey, .characterSet] rfl (fun _ => id) h
    exact hread progress hp hi
  | true =>
    obtain ⟨progress, hp, hi⟩ := reads_keyLexemes { nullability := some .notNull } key
      [.autoIncrement] [.defaultValue, .comment, .encoding, .distKey, .sortKey, .characterSet] rfl
      (fun _ => List.mem_cons_of_mem _) h
    have hnullability : (Attribute.rule .nullability).Reads
        (keywordLexemes ["NOT", "NULL"] ++ (keywordLexemes (key.elim [] KeyMarker.keywords) ++ ls))
        (.nullability .notNull) (keywordLexemes (key.elim [] KeyMarker.keywords) ++ ls) :=
      ((reads_keywords rfl _).seqRight (reads_pure _ _)).orElse _
    have hclause := reads_clause {} [] [.autoIncrement, .key, .defaultValue, .comment, .encoding,
      .distKey, .sortKey, .characterSet] (fun _ hk => nomatch hk) hnullability
    exact hread progress hp (hclause.iterate hi)

end ColumnAttributes

theorem ColumnDefinition.reads_rule (d : ColumnDescription) (h : Heads itemEnds ls) :
    ColumnDefinition.rule.Reads (d.lexemes ++ ls) d.definition ls := by
  have hkey := ColumnAttributes.heads_keyLexemes d.key h
  have hattributes : Heads attributeHeads (lexemesIf d.notNull ["NOT", "NULL"] ++
      (keywordLexemes (d.key.elim [] KeyMarker.keywords) ++ ls)) := by
    refine hkey.append ?_
    cases d.notNull
    · exact .inl rfl
    · exact .inr ⟨_, List.mem_cons_self .., rfl⟩
  simp only [ColumnDescription.lexemes, QuotedName.lexemes, List.cons_append, List.nil_append,
    List.append_assoc]
  refine ((reads_identifier [] _ _ (heads_cons _ _) rfl).orMiss _).bind ?_
  refine ((TypeSpec.reads_rule d.type hattributes).orMiss _).bind ?_
  exact (ColumnAttributes.reads_rule d.notNull d.key h).bind (reads_pure _ ls)

end TableSchema
