import TableSchema.Proofs.Continuation

/-!
# Items by their first word

A word that comes next is a name, and a type wherever a type may stand. No rule of a type or of the
attributes behind it fails, so two words make a column. The first word tells which of the items that
are tried before columns may be read.
-/

namespace TableSchema

open Rule Scan
open Statement (comesNext skipWord read_present_anyKeyword)

/-- The word that comes next in capital letters. -/
def nextCapitals (s : List Char) : List Char := (nextWord s).map Char.toUpper

-- ---------------------------------------------------------------------------
-- Words
-- ---------------------------------------------------------------------------

namespace Rule

theorem head?_any_isWordChar (s : List Char) :
    (skipTrivia s).head?.any isWordChar = true ↔ nextWord s ≠ [] := by
  rw [nextWord]
  cases skipTrivia s with
  | nil => simp
  | cons c rest => by_cases hc : isWordChar c <;> simp [hc]

theorem read_word (s : List Char) :
    word.read s =
      if nextWord s = [] then none else some (String.ofList (nextWord s), afterWord s) := by
  rw [word, read_map, read_run1]
  by_cases h : nextWord s = []
  · rw [if_pos h, if_neg (by simp [head?_any_isWordChar, h])]; rfl
  · rw [if_neg h, if_pos ((head?_any_isWordChar s).mpr h)]; rfl

/-- Where a word comes next it is the identifier. -/
theorem read_identifier_of_nextWord (h : nextWord s ≠ []) :
    (identifier []).read s = some (String.ofList (nextWord s), afterWord s) := by
  have hquoted : quotedName.read s = none := by
    rw [read_quotedName]
    have := (head?_any_isWordChar s).mpr h
    cases hs : skipTrivia s with
    | nil => rfl
    | cons c rest =>
      rw [hs] at this
      have hc : isWordChar c = true := this
      rw [quoted, if_neg]
      rintro (rfl | rfl) <;> exact absurd hc (by decide +kernel)
  have hbare : (fun c => isWordChar c || ([] : List Char).contains c) = isWordChar := by
    funext c
    simp
  rw [identifier, read_orElse, hquoted, Option.none_or, hbare]
  have := read_word s
  rwa [if_neg h] at this

theorem read_anyKeyword_of_notMem {words : List String} (hw : words.all isCapital = true)
    (h : nextCapitals s ∉ words.map String.toList) : (anyKeyword words).read s = none := by
  rw [read_anyKeyword hw]
  exact if_neg h

theorem read_keyword_of_eq {w : String} (hw : isCapital w = true)
    (h : nextCapitals s = w.toList) : (keyword w).read s = some ((), afterWord s) := by
  rw [read_keyword hw]
  exact if_pos h

theorem read_keyword_of_ne {w : String} (hw : isCapital w = true)
    (h : nextCapitals s ≠ w.toList) : (keyword w).read s = none := by
  rw [read_keyword hw]
  exact if_neg h

theorem read_keywords_of_ne {w : String} (words : List String) (hw : isCapital w = true)
    (h : nextCapitals s ≠ w.toList) : (keywords (w :: words)).read s = none := by
  show (keyword w >>= fun _ => keywords words).read s = none
  rw [read_bind, read_keyword_of_ne hw h]
  rfl

theorem read_keywords_eq_none_iff {words : List String} (hw : words.all isCapital = true)
    (s : List Char) : (keywords words).read s = none ↔ ¬ comesNext words s := by
  induction words generalizing s with
  | nil => exact iff_of_false nofun fun h => h trivial
  | cons w words ih =>
    rw [List.all_cons, Bool.and_eq_true] at hw
    by_cases h : nextCapitals s = w.toList
    · show (keyword w >>= fun _ => keywords words).read s = none ↔ _
      rw [read_bind, read_keyword_of_eq hw.1 h, Option.bind_some, ih hw.2, comesNext, not_and]
      exact ⟨fun hn _ => hn, fun hn => hn h⟩
    · exact iff_of_true (read_keywords_of_ne words hw.1 h) fun hn => h hn.1

end Rule

-- ---------------------------------------------------------------------------
-- Columns
-- ---------------------------------------------------------------------------

namespace TypeSpec

theorem mem_modifiers_of_read (h : modifier.read s = some (m, rest)) : m ∈ modifiers := by
  have hmem (rules : List (List String)) {m : List String}
      (h : (firstOf (rules.map fun words => keywords words *> pure words)).read s =
        some (m, rest)) : m ∈ rules := by
    induction rules with
    | nil => cases h
    | cons words rules ih =>
      rw [List.map_cons, read_firstOf_cons, Option.or_eq_some_iff, read_seqRight] at h
      rcases h with h | ⟨-, h⟩
      · obtain ⟨x, -, hx⟩ := Option.bind_eq_some_iff.mp h
        cases hx
        exact List.mem_cons_self ..
      · exact List.mem_cons_of_mem _ (ih h)
  exact hmem modifiers h

theorem modifier_eq_none_iff (s : List Char) :
    modifier.read s = none ↔ ∀ m ∈ modifiers, ¬ comesNext m s := by
  have hcapital : ∀ m ∈ modifiers, m.all isCapital = true := by decide
  rw [modifier, read_firstOf_eq_none_iff, List.forall_mem_map]
  refine forall₂_congr fun m hm => ?_
  rw [read_seqRight, ← read_keywords_eq_none_iff (hcapital m hm)]
  cases (keywords m).read s with
  | none => exact iff_of_true rfl rfl
  | some x => exact iff_of_false nofun nofun

/-- The words of a type's name: its first one and modifiers. -/
def Extends (first : String) (words : List String) : Prop :=
  ∃ ms : List (List String), (∀ m ∈ ms, m ∈ modifiers) ∧ words = first :: ms.flatten

theorem extends_singleton (first : String) : Extends first [first] := ⟨[], nofun, rfl⟩

theorem extends_append {words : List String} (h : Extends first words) (hm : m ∈ modifiers) :
    Extends first (words ++ m) := by
  obtain ⟨ms, hms, rfl⟩ := h
  refine ⟨ms ++ [m], fun m' hm' => ?_, by simp⟩
  rcases List.mem_append.mp hm' with hm' | hm'
  · exact hms m' hm'
  · cases List.mem_singleton.mp hm'
    exact hm

theorem extend_reads {words : List String} (h : Extends first words) (s : List Char) :
    ∃ words' rest, (extend words).read s = some (words', rest) ∧ Extends first words' := by
  obtain ⟨words', rest, hr⟩ := exists_read_iterate
    (fun _ => consumes_modifier.map _) words s
  refine ⟨words', rest, hr,
    read_iterate_keeps (Extends first) (fun {words _ _ _} hstep hw => ?_) hr h⟩
  rw [read_map] at hstep
  obtain ⟨⟨m, rest⟩, hm, he⟩ := Option.map_eq_some_iff.mp hstep
  cases he
  exact extends_append hw (mem_modifiers_of_read hm)

/-- The words stay as they are exactly if no modifier comes next. -/
theorem extend_eq_iff {words words' : List String}
    (h : (extend words).read s = some (words', rest)) :
    words' = words ↔ ∀ m ∈ modifiers, ¬ comesNext m s := by
  rw [extend, read_iterate, read_map] at h
  rw [← modifier_eq_none_iff]
  cases hm : modifier.read s with
  | none =>
    rw [hm] at h
    cases h
    exact iff_of_true rfl rfl
  | some x =>
    obtain ⟨m, s'⟩ := x
    rw [hm] at h
    have hne : ∀ m ∈ modifiers, 0 < m.length := by decide
    have hlonger : words.length < words'.length := by
      refine read_iterate_keeps (fun found => words.length < found.length) ?_ h ?_
      · intro found found' s rest hstep hf
        rw [read_map] at hstep
        obtain ⟨x, -, he⟩ := Option.map_eq_some_iff.mp hstep
        cases he
        exact Nat.lt_of_lt_of_le hf (by simp)
      · simpa using hne m (mem_modifiers_of_read hm)
    exact iff_of_false (fun he => absurd (he ▸ hlonger) (Nat.lt_irrefl _)) nofun

theorem extendBehind_reads {words : List String} (group : Option (Length × Option Nat))
    (h : Extends first words) (s : List Char) :
    ∃ words' rest, (extendBehind group words).read s = some (words', rest) ∧
      Extends first words' := by
  cases group with
  | none => exact ⟨words, s, rfl, h⟩
  | some group => exact extend_reads h s

theorem option_lengthGroup_reads (s : List Char) :
    ∃ rest, (option lengthGroup).read s = some ((lengthGroup.read s).map Prod.fst, rest) := by
  rw [read_option]
  rcases lengthGroup.read s with _ | ⟨group, rest⟩ <;> exact ⟨_, rfl⟩

theorem flag_sets (h : (flag type).read s = some (type', rest)) :
    type' = { type with unsigned := true } ∨ type' = { type with zerofill := true } := by
  have hset {set : Bool} {w : String} {t : TypeSpec}
      (h : (if set then never else keyword w *> pure t : Rule TypeSpec).read s =
        some (type', rest)) : type' = t := by
    cases set with
    | true => cases h
    | false =>
      obtain ⟨x, -, hx⟩ := Option.bind_eq_some_iff.mp ((read_seqRight ..).symm.trans h)
      cases hx
      rfl
  rw [flag, read_orElse, Option.or_eq_some_iff] at h
  rcases h with h | ⟨-, h⟩
  · exact .inl (hset h)
  · exact .inr (hset h)

theorem flags_read (type : TypeSpec) (s : List Char) :
    ∃ type' rest, (iterate flag consumes_flag type).read s = some (type', rest) ∧
      type'.words = type.words ∧ type'.length = type.length ∧ type'.scale = type.scale := by
  obtain ⟨type', rest, hr⟩ := exists_read_iterate consumes_flag type s
  refine ⟨type', rest, hr, read_iterate_keeps (fun t : TypeSpec =>
    t.words = type.words ∧ t.length = type.length ∧ t.scale = type.scale) ?_ hr ⟨rfl, rfl, rfl⟩⟩
  intro x y s rest h hx
  rcases flag_sets h with rfl | rfl <;> exact hx

/-- Where a word comes next a type does, whatever stands behind the word. -/
theorem exists_read (h : word.read s = some (first, middle)) :
    ∃ words behind type rest, (extend [first]).read middle = some (words, behind) ∧
      rule.read s = some (type, rest) ∧ Extends first type.words ∧
      (∀ group after, lengthGroup.read behind = some (group, after) →
        ∃ last, (extend words).read after = some (type.words, last)) ∧
      type.length = (lengthGroup.read behind).map (·.1.1) ∧
      type.scale = (lengthGroup.read behind).bind (·.1.2) := by
  obtain ⟨words, behind, hwords, hx⟩ := extend_reads (extends_singleton first) middle
  obtain ⟨s1, hgroup⟩ := option_lengthGroup_reads behind
  obtain ⟨words', s2, hwords', hx'⟩ :=
    extendBehind_reads ((lengthGroup.read behind).map Prod.fst) hx s1
  obtain ⟨type, s3, hflags, hw, hl, hsc⟩ := flags_read
    { words := words'
      length := ((lengthGroup.read behind).map Prod.fst).map (·.1)
      scale := ((lengthGroup.read behind).map Prod.fst).bind (·.2) } s2
  obtain ⟨dimensions, rest, hbrackets⟩ := exists_read_iterate
    (fun _ => consumes_bracket.map _) 0 s3
  refine ⟨words, behind, { type with dimensions }, rest, hwords, ?_, ?_, ?_, ?_, ?_⟩
  · rw [rule, read_bind, h, Option.bind_some, read_bind, hwords, Option.bind_some, read_bind,
      hgroup, Option.bind_some, read_bind, hwords', Option.bind_some, read_bind, hflags,
      Option.bind_some, read_bind, brackets, hbrackets]
    rfl
  · rw [hw]; exact hx'
  · intro group after hread
    rw [read_option, hread] at hgroup
    rw [hread] at hwords'
    cases hgroup
    exact ⟨s2, hw ▸ hwords'⟩
  · rw [hl, Option.map_map]; rfl
  · rw [hsc, Option.bind_map]; rfl

end TypeSpec

namespace ColumnDefinition

/-- Where a name and a type come next a column does: its attributes take any text. -/
theorem exists_read {n : String} {t : TypeSpec}
    (hname : (identifier []).read s = some (n, middle))
    (htype : TypeSpec.rule.read middle = some (t, behind)) :
    ∃ attributes rest, rule.read s = some (⟨n, t, attributes⟩, rest) := by
  obtain ⟨progress, rest, h⟩ := exists_read_iterate
    ColumnAttributes.consumes_clauseOrUnclaimed {} behind
  refine ⟨progress.attributes, rest, ?_⟩
  rw [rule, read_bind, orMiss, read_orElse, hname, Option.some_or, Option.bind_some, read_bind,
    orMiss, read_orElse, htype, Option.some_or, Option.bind_some, read_bind,
    ColumnAttributes.rule, read_map, h]
  rfl

end ColumnDefinition

-- ---------------------------------------------------------------------------
-- Items by their first word
-- ---------------------------------------------------------------------------

/-- The words with which a constraint may begin. -/
def constraintWords : List String := ["CONSTRAINT", "PRIMARY", "UNIQUE", "NOT", "FOREIGN"]

theorem ConstraintKind.read_eq_none (h : nextCapitals s ∉ constraintWords.map String.toList) :
    ConstraintKind.rule.read s = none := by
  have hne {w : String} (hw : w ∈ constraintWords) : nextCapitals s ≠ w.toList :=
    fun he => h (he ▸ List.mem_map_of_mem hw)
  have hprimary := read_keywords_of_ne ["KEY"] rfl (hne (w := "PRIMARY") (by decide))
  have hunique := read_keyword_of_ne rfl (hne (w := "UNIQUE") (by decide))
  have hnot := read_keywords_of_ne ["NULL"] rfl (hne (w := "NOT") (by decide))
  have hforeign := read_keywords_of_ne ["KEY"] rfl (hne (w := "FOREIGN") (by decide))
  simp [rule, read_orElse, read_seqRight, hprimary, hunique, hnot, hforeign]

theorem Constraint.read_eq_none (h : nextCapitals s ∉ constraintWords.map String.toList) :
    Constraint.rule.read s = none := by
  have hname : (keyword "CONSTRAINT").read s = none :=
    read_keyword_of_ne rfl fun he => h (he ▸ List.mem_map_of_mem (by decide))
  rw [rule, read_bind, read_ifPresent, hname]
  show ((ConstraintKind.rule <|> never) >>= _).read s = none
  rw [read_bind, read_orElse, ConstraintKind.read_eq_none h]
  rfl

namespace Item

theorem read_groupAhead (s : List Char) :
    groupAhead.read s = if ((symbol "(").read s).isSome then some ((), s) else none := by
  rw [groupAhead, read_ifAhead]
  rfl

theorem check_eq_none (h : nextCapitals s ∉ ["CONSTRAINT".toList, "CHECK".toList]) :
    check.read s = none := by
  simp only [List.mem_cons, List.not_mem_nil, or_false, not_or] at h
  rw [check, read_bind, read_ifPresent, read_keyword_of_ne rfl h.1]
  show (keyword "CHECK" >>= _).read s = none
  rw [read_bind, read_keyword_of_ne rfl h.2]
  rfl

/-- An index begins with `KEY` or `INDEX`, perhaps behind a word for its kind. -/
def beginsIndex (s : List Char) : Prop :=
  nextCapitals (skipWord ["FULLTEXT", "SPATIAL"] s) ∈ ["KEY", "INDEX"].map String.toList

instance (s : List Char) : Decidable (beginsIndex s) :=
  decidable_of_iff _ List.contains_iff_mem

theorem index_eq_none (h : ¬ beginsIndex s) : index.read s = none := by
  obtain ⟨found, hkind⟩ := read_present_anyKeyword ["FULLTEXT", "SPATIAL"] rfl s
  rw [index, read_bind, hkind, Option.bind_some, read_bind,
    read_anyKeyword_of_notMem rfl h]
  rfl

theorem not_beginsIndex (h : nextCapitals s ∉
    ["FULLTEXT", "SPATIAL", "KEY", "INDEX"].map String.toList) : ¬ beginsIndex s := by
  simp only [List.map_cons, List.map_nil, List.mem_cons, List.not_mem_nil, or_false, not_or] at h
  have hskip : skipWord ["FULLTEXT", "SPATIAL"] s = s := if_neg (by simpa using ⟨h.1, h.2.1⟩)
  rw [beginsIndex, hskip]
  simpa using h.2.2

theorem restOfItem_reads (s : List Char) : ∃ rest, restOfItem.read s = some ((), rest) :=
  let ⟨_, rest, h⟩ := exists_read_iterate (fun _ => consumes_unclaimed) () s
  ⟨rest, h⟩

/-- An item that is neither dropped nor a constraint is a column. -/
theorem read_of_not_dropped (hcheck : check.read s = none) (hindex : index.read s = none)
    (hconstraint : Constraint.rule.read s = none) :
    rule.read s = (ColumnDefinition.rule.read s).map fun x => (some (column x.1), x.2) := by
  rw [rule, read_orElse, read_orElse, read_seqRight, dropped, read_orElse, hcheck, hindex, read_map,
    hconstraint, read_map]
  rfl

end Item

end TableSchema
