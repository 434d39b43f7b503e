import TableSchema.Proofs.Grammar.Column

/-!
# Statements as they are described

The rules of constraints, items and statements read back the lexemes of a description. An item is
first tried as one that is dropped and as a constraint; where it is described as something else,
these fail at a word.
-/

namespace TableSchema

open Rule

-- ---------------------------------------------------------------------------
-- Names and lists of names
-- ---------------------------------------------------------------------------

theorem reads_quotedName (extra : List Char) (expected : Expectation) (name : QuotedName)
    (h : Heads allowed ls) (ha : allowed.all (fun l => !l.isName) = true) :
    ((identifier extra).orMiss expected).Reads (name.lexemes ++ ls) name.text ls :=
  (reads_identifier extra name.quote name.text h ha).orMiss expected

theorem QualifiedName.reads_rule (extra : List Char) (parts : OneOrMore QuotedName)
    (ls : List Lexeme) :
    (QualifiedName.rule extra).Reads
      (parts.joined .dot QuotedName.lexemes ++ .symbol .openParenthesis :: ls)
      (QualifiedName.ofParts parts.texts) (.symbol .openParenthesis :: ls) := by
  refine Reads.map _ (reads_separated parts (fun name _ => ?_) (fun name => ?_)
    (fun ms => reads_symbol rfl ms) (fails_symbol .dot rfl (heads_cons _ _) rfl))
  · exact reads_quotedName extra _ name (heads_cons _ _) rfl
  · exact reads_quotedName extra _ name (heads_cons _ _) rfl

theorem reads_indexedColumn (name : QuotedName) (h : Heads itemEnds ls) :
    indexedColumn.Reads (name.lexemes ++ ls) name.text ls := by
  refine (reads_quotedName [] _ name h rfl).bind ?_
  have hlength : indexLength.Fails ls := (fails_symbol .openParenthesis rfl h rfl).bind _
  refine hlength.present.bind ?_
  exact (fails_anyKeyword rfl h rfl).present.bind (reads_pure _ ls)

theorem reads_columnList (names : OneOrMore QuotedName) (ls : List Lexeme) :
    columnList.Reads (namesInParentheses names ++ ls) names.texts ls := by
  have hlexemes : namesInParentheses names ++ ls = .symbol .openParenthesis ::
      (names.joined .comma QuotedName.lexemes ++ .symbol .closeParenthesis :: ls) := by
    simp [namesInParentheses]
  have hcomma (ms : List Lexeme) : Heads itemEnds (.symbol .comma :: ms) :=
    (heads_cons _ _).imp (by simp [itemEnds])
  have hclose : Heads itemEnds (.symbol .closeParenthesis :: ls) :=
    (heads_cons _ _).imp (by simp [itemEnds])
  rw [hlexemes]
  refine ((reads_symbol rfl _).orMiss _).bind ?_
  refine Reads.bind (reads_separated names (fun name ms => reads_indexedColumn name (hcomma ms))
    (fun name => reads_indexedColumn name hclose) (fun ms => reads_symbol rfl ms)
    (fails_symbol .comma rfl (heads_cons _ _) rfl)) ?_
  exact ((reads_symbol rfl ls).orMiss _).bind (reads_pure _ ls)

-- ---------------------------------------------------------------------------
-- Constraints
-- ---------------------------------------------------------------------------

theorem ReferentialAction.reads_rule (action : ReferentialAction) (ls : List Lexeme) :
    ReferentialAction.rule.Reads (keywordLexemes action.keywords ++ ls) action ls := by
  cases action with
  | restrict => exact ((reads_keyword rfl ls).seqRight (reads_pure _ ls)).orElse _
  | cascade =>
    refine Fails.orElse ((fails_keyword rfl (heads_cons _ _) rfl).seqRight _) ?_
    exact ((reads_keyword rfl ls).seqRight (reads_pure _ ls)).orElse _
  | setNull =>
    refine Fails.orElse ((fails_keyword rfl (heads_cons _ _) rfl).seqRight _) ?_
    refine Fails.orElse ((fails_keyword rfl (heads_cons _ _) rfl).seqRight _) ?_
    exact ((reads_keywords rfl ls).seqRight (reads_pure _ ls)).orElse _
  | noAction =>
    refine Fails.orElse ((fails_keyword rfl (heads_cons _ _) rfl).seqRight _) ?_
    refine Fails.orElse ((fails_keyword rfl (heads_cons _ _) rfl).seqRight _) ?_
    refine Fails.orElse ((fails_keywords _ rfl (heads_cons _ _) rfl).seqRight _) ?_
    exact (reads_keywords rfl ls).seqRight (reads_pure _ ls)

namespace Reference

/-- What may follow the columns of a reference and the mode of a match. -/
def eventHeads : List Lexeme := [.keyword "ON"] ++ itemEnds

theorem reads_onDelete (reference : Reference) (action : ReferentialAction) (ls : List Lexeme) :
    (event reference).Reads (eventLexemes "DELETE" (some action) ++ ls)
      { reference with onDelete := some action } ls := by
  refine (reads_keyword rfl _).bind ?_
  refine Reads.bind (((reads_keyword rfl _).seqRight (reads_pure true _)).orElse _) ?_
  exact (ReferentialAction.reads_rule action ls).bind (reads_pure _ ls)

theorem reads_onUpdate (reference : Reference) (action : ReferentialAction) (ls : List Lexeme) :
    (event reference).Reads (eventLexemes "UPDATE" (some action) ++ ls)
      { reference with onUpdate := some action } ls := by
  refine (reads_keyword rfl _).bind ?_
  refine Reads.bind (Fails.orElse ((fails_keyword rfl (heads_cons _ _) rfl).seqRight _)
    ((reads_keyword rfl _).seqRight (reads_pure false _))) ?_
  exact (ReferentialAction.reads_rule action ls).bind (reads_pure _ ls)

theorem heads_event (event : String) (action : Option ReferentialAction)
    (h : Heads eventHeads ls) : Heads eventHeads (eventLexemes event action ++ ls) := by
  cases action with
  | none => exact h
  | some action => exact ⟨_, List.mem_cons_self .., rfl⟩

theorem reads_events (table : String) (columns : List String) (matchMode : Option String)
    (onDelete onUpdate : Option ReferentialAction) (h : Heads itemEnds ls) :
    (iterate event consumes_event { table, columns, matchMode }).Reads
      (eventLexemes "DELETE" onDelete ++ (eventLexemes "UPDATE" onUpdate ++ ls))
      { table, columns, matchMode, onDelete, onUpdate } ls := by
  have hend (reference : Reference) :
      (iterate event consumes_event reference).Reads ls reference ls :=
    ((fails_keyword rfl h rfl).bind _).iterate
  have hupdate (done : Option ReferentialAction) :
      (iterate event consumes_event { table, columns, matchMode, onDelete := done }).Reads
        (eventLexemes "UPDATE" onUpdate ++ ls)
        { table, columns, matchMode, onDelete := done, onUpdate } ls := by
    cases onUpdate with
    | none => exact hend _
    | some action => exact (reads_onUpdate _ action ls).iterate (hend _)
  cases onDelete with
  | none => exact hupdate none
  | some action => exact (reads_onDelete _ action _).iterate (hupdate (some action))

theorem reads_matchMode (d : ReferenceDescription) (h : Heads eventHeads ls) :
    (ifPresent (keyword "MATCH") (option word) (pure none)).Reads (d.matchLexemes ++ ls)
      (d.matchMode.map (·.text)) ls := by
  rw [ReferenceDescription.matchLexemes]
  cases d.matchMode with
  | none => exact (fails_keyword rfl h rfl).ifPresent _ (reads_pure none ls)
  | some mode => exact (reads_keyword rfl _).ifPresent (reads_word mode ls).option _

theorem reads_rule (d : ReferenceDescription) (h : Heads itemEnds ls) :
    rule.Reads (d.lexemes ++ ls) d.reference ls := by
  have hevents : Heads eventHeads
      (eventLexemes "DELETE" d.onDelete ++ (eventLexemes "UPDATE" d.onUpdate ++ ls)) :=
    heads_event _ _ (heads_event _ _ (h.imp fun _ => List.mem_append_right _))
  have hopen : (symbol "(").Reads
      (namesInParentheses d.columns ++ (d.matchLexemes ++ (eventLexemes "DELETE" d.onDelete ++
        (eventLexemes "UPDATE" d.onUpdate ++ ls)))) () _ := reads_symbol rfl _
  simp only [ReferenceDescription.lexemes, List.cons_append, List.append_assoc]
  refine (reads_keyword rfl _).bind ?_
  refine (QualifiedName.reads_rule [] d.parts _).bind ?_
  refine (hopen.ifAhead (reads_columnList d.columns _) _).bind ?_
  refine (reads_matchMode d hevents).bind ?_
  exact reads_events _ _ _ d.onDelete d.onUpdate h

theorem fails_rule (h : Heads itemEnds ls) : rule.Fails ls := (fails_keyword rfl h rfl).bind _

end Reference

namespace ConstraintDescription.Kind

def heads : List Lexeme :=
  [.keyword "PRIMARY", .keyword "UNIQUE", .keyword "NOT", .keyword "FOREIGN"]

theorem heads_keywords (kind : ConstraintDescription.Kind) (ls : List Lexeme) :
    Heads heads (keywordLexemes kind.keywords ++ ls) := by
  cases kind <;> exact ⟨_, by simp [heads], rfl⟩

end ConstraintDescription.Kind

theorem ConstraintKind.reads_rule (kind : ConstraintDescription.Kind) (ls : List Lexeme) :
    ConstraintKind.rule.Reads (keywordLexemes kind.keywords ++ .symbol .openParenthesis :: ls)
      kind.kind (.symbol .openParenthesis :: ls) := by
  cases kind with
  | primaryKey => exact ((reads_keywords rfl _).seqRight (reads_pure _ _)).orElse _
  | unique =>
    refine Fails.orElse ((fails_keywords _ rfl (heads_cons _ _) rfl).seqRight _) ?_
    exact (((reads_keyword rfl _).seqRight
      (fails_anyKeyword rfl (heads_cons _ _) rfl).present).seqRight (reads_pure _ _)).orElse _
  | notNull =>
    refine Fails.orElse ((fails_keywords _ rfl (heads_cons _ _) rfl).seqRight _) ?_
    refine Fails.orElse (((fails_keyword rfl (heads_cons _ _) rfl).seqRight _).seqRight _) ?_
    exact ((reads_keywords rfl _).seqRight (reads_pure _ _)).orElse _
  | foreignKey references =>
    refine Fails.orElse ((fails_keywords _ rfl (heads_cons _ _) rfl).seqRight _) ?_
    refine Fails.orElse (((fails_keyword rfl (heads_cons _ _) rfl).seqRight _).seqRight _) ?_
    refine Fails.orElse ((fails_keywords _ rfl (heads_cons _ _) rfl).seqRight _) ?_
    exact (reads_keywords rfl _).seqRight (reads_pure _ _)

theorem ConstraintKind.fails_rule (h : Heads allowed ls)
    (ha : allowed.all (fun l => ["PRIMARY", "UNIQUE", "NOT", "FOREIGN"].all fun w =>
      l.capitals != w.toList) = true) : ConstraintKind.rule.Fails ls := by
  have hword {w : String} (hw : w ∈ ["PRIMARY", "UNIQUE", "NOT", "FOREIGN"]) :
      allowed.all (fun l => l.capitals != w.toList) = true :=
    List.all_eq_true.mpr fun l hl => List.all_eq_true.mp (List.all_eq_true.mp ha l hl) w hw
  refine Fails.orElse_fails ((fails_keywords _ rfl h (hword (by simp))).seqRight _) ?_
  refine Fails.orElse_fails (((fails_keyword rfl h (hword (by simp))).seqRight _).seqRight _) ?_
  refine Fails.orElse_fails ((fails_keywords _ rfl h (hword (by simp))).seqRight _) ?_
  exact (fails_keywords _ rfl h (hword (by simp))).seqRight _

namespace Constraint

/-- The name that a constraint may have is read as it is described, by whatever rule reads names. -/
theorem reads_nameLexemes (d : ConstraintDescription) {p : Rule String} {ms : List Lexeme}
    (hp : ∀ name : QuotedName, p.Reads (name.lexemes ++ ms) name.text ms)
    (hm : (keyword "CONSTRAINT").Fails ms) :
    (ifPresent (keyword "CONSTRAINT") (some <$> p) (pure none)).Reads (d.nameLexemes ++ ms)
      (d.name.map (·.text)) ms := by
  rw [ConstraintDescription.nameLexemes]
  cases d.name with
  | none => exact hm.ifPresent _ (reads_pure _ _)
  | some name => exact (reads_keyword rfl _).ifPresent ((hp name).map some) _

theorem reads_ofKind (kind : ConstraintDescription.Kind) (h : Heads itemEnds ls) :
    (Reference.ofKind kind.kind).Reads
      (kind.references?.elim [] ReferenceDescription.lexemes ++ ls)
      (kind.references?.map (·.reference)) ls := by
  cases kind with
  | primaryKey | unique | notNull => exact reads_pure none ls
  | foreignKey references =>
    cases references with
    | none => exact (Reference.fails_rule h).option
    | some d => exact (Reference.reads_rule d h).option

theorem reads_rule (d : ConstraintDescription) (h : Heads itemEnds ls) :
    Constraint.rule.Reads (d.lexemes ++ ls) d.constraint ls := by
  simp only [ConstraintDescription.lexemes, List.append_assoc]
  have hkind := d.kind.heads_keywords (namesInParentheses d.columns ++
    (d.kind.references?.elim [] ReferenceDescription.lexemes ++ ls))
  refine (reads_nameLexemes d (fun name => reads_quotedName [] _ name hkind rfl)
    (fails_keyword rfl hkind rfl)).bind ?_
  refine ((ConstraintKind.reads_rule d.kind _).orElse _).bind ?_
  have hopen : (symbol "(").Reads
      (namesInParentheses d.columns ++
        (d.kind.references?.elim [] ReferenceDescription.lexemes ++ ls)) () _ := reads_symbol rfl _
  refine (hopen.ifAhead (reads_pure none _) _).bind ?_
  refine (reads_columnList d.columns _).bind ?_
  refine (reads_ofKind d.kind h).bind ?_
  refine (reads_restOfItem h).bind (reads_pure_of_eq ?_ ls)
  simp [ConstraintDescription.constraint]

/-- No constraint begins with the name of a column. -/
theorem fails_rule (name : QuotedName) (ls : List Lexeme) :
    Constraint.rule.Fails (name.lexemes ++ ls) := by
  have hheads := heads_cons (.name name.quote name.text) ls
  refine Reads.bind_fails ((fails_keyword rfl hheads rfl).ifPresent _ (reads_pure none _)) ?_
  exact ((ConstraintKind.fails_rule hheads rfl).orElse_fails (fails_never _)).bind _

end Constraint

-- ---------------------------------------------------------------------------
-- Items
-- ---------------------------------------------------------------------------

namespace Item

theorem fails_index (h : Heads allowed ls)
    (hkind : allowed.all (fun l =>
      ["FULLTEXT", "SPATIAL"].all fun w => l.capitals != w.toList) = true)
    (hindex : allowed.all (fun l => ["KEY", "INDEX"].all fun w => l.capitals != w.toList) = true) :
    index.Fails ls :=
  Reads.bind_fails (fails_anyKeyword rfl h hkind).present ((fails_anyKeyword rfl h hindex).bind _)

theorem fails_dropped_column (d : ColumnDescription) (ls : List Lexeme) :
    dropped.Fails (d.lexemes ++ ls) := by
  have hheads := heads_cons (.name d.name.quote d.name.text) (d.type.lexemes ++
    (lexemesIf d.notNull ["NOT", "NULL"] ++
      keywordLexemes (d.key.elim [] KeyMarker.keywords)) ++ ls)
  refine Fails.orElse_fails ?_ (fails_index hheads rfl rfl)
  exact Reads.bind_fails ((fails_keyword rfl hheads rfl).ifPresent _ (reads_pure none _))
    ((fails_keyword rfl hheads rfl).bind _)

def constraintHeads : List Lexeme := [.keyword "CONSTRAINT"] ++ ConstraintDescription.Kind.heads

theorem heads_constraint (d : ConstraintDescription) (ls : List Lexeme) :
    Heads constraintHeads (d.lexemes ++ ls) := by
  simp only [ConstraintDescription.lexemes, ConstraintDescription.nameLexemes, List.append_assoc]
  refine (d.kind.heads_keywords _).append ?_
  cases d.name with
  | none => exact .inl rfl
  | some name => exact .inr ⟨_, List.mem_cons_self .., rfl⟩

/-- A check differs from a constraint behind the name that either may have. -/
theorem fails_dropped_constraint (d : ConstraintDescription) (ls : List Lexeme) :
    dropped.Fails (d.lexemes ++ ls) := by
  refine Fails.orElse_fails ?_ (fails_index (heads_constraint d ls) rfl rfl)
  simp only [ConstraintDescription.lexemes, List.append_assoc]
  have hkind := d.kind.heads_keywords (namesInParentheses d.columns ++
    (d.kind.references?.elim [] ReferenceDescription.lexemes ++ ls))
  refine Reads.bind_fails (Constraint.reads_nameLexemes d
    (fun name => reads_identifier [] name.quote name.text hkind rfl)
    (fails_keyword rfl hkind rfl)) ((fails_keyword rfl hkind rfl).bind _)

theorem reads_rule (d : ItemDescription) (h : Heads itemEnds ls) :
    Item.rule.Reads (d.lexemes ++ ls) (some d.item) ls := by
  cases d with
  | column d =>
    refine Fails.orElse ((fails_dropped_column d ls).seqRight _) ?_
    refine Fails.orElse (Fails.map _ ?_) ((ColumnDefinition.reads_rule d h).map _)
    simp only [ItemDescription.lexemes, ColumnDescription.lexemes, List.append_assoc]
    exact Constraint.fails_rule d.name _
  | constraint d =>
    refine Fails.orElse ((fails_dropped_constraint d ls).seqRight _) ?_
    exact ((Constraint.reads_rule d h).map _).orElse _

theorem fails_close (d : ItemDescription) (ls : List Lexeme) :
    (symbol ")").Fails (d.lexemes ++ ls) := by
  cases d with
  | column d =>
    exact fails_symbol .closeParenthesis rfl (heads_cons (.name d.name.quote d.name.text) _) rfl
  | constraint d => exact fails_symbol .closeParenthesis rfl (heads_constraint d ls) rfl

theorem reads_round_comma (items : List Item) (d : ItemDescription) (ls : List Lexeme) :
    (round items).Reads (d.lexemes ++ .symbol .comma :: ls) (.again (items ++ [d.item])) ls := by
  have hcomma : Heads itemEnds (.symbol .comma :: ls) := (heads_cons _ _).imp (by simp [itemEnds])
  refine (fails_close d _).ifAhead _ ((reads_rule d hcomma).bind ?_)
  exact (reads_symbol rfl ls).ifPresent (reads_pure _ ls) _

theorem reads_round_close (items : List Item) (d : ItemDescription) (ls : List Lexeme) :
    (round items).Reads (d.lexemes ++ .symbol .closeParenthesis :: ls)
      (.finish (items ++ [d.item])) (.symbol .closeParenthesis :: ls) := by
  have hclose : Heads itemEnds (.symbol .closeParenthesis :: ls) :=
    (heads_cons _ _).imp (by simp [itemEnds])
  refine (fails_close d _).ifAhead _ ((reads_rule d hclose).bind ?_)
  exact (fails_symbol .comma rfl (heads_cons _ _) rfl).ifPresent _ (reads_pure _ _)

theorem reads_items (items : List Item) (d : ItemDescription) (more : List ItemDescription)
    (ls : List Lexeme) :
    (loop round advances_round items).Reads
      (d.lexemes ++ (continued .comma ItemDescription.lexemes more ++
        .symbol .closeParenthesis :: ls))
      (items ++ (d :: more).map (·.item)) (.symbol .closeParenthesis :: ls) := by
  induction more generalizing items d with
  | nil => exact Reads.loop_finish (reads_round_close items d ls)
  | cons next more ih =>
    rw [continued_cons_append, List.map_cons, List.append_cons items]
    exact Reads.loop_again (reads_round_comma items d _) (ih _ next)

theorem reads_list (items : OneOrMore ItemDescription) (ls : List Lexeme) :
    list.Reads (.symbol .openParenthesis :: (items.joined .comma ItemDescription.lexemes ++
      .symbol .closeParenthesis :: ls)) (items.toList.map (·.item)) ls := by
  refine ((reads_symbol rfl _).orMiss _).bind ?_
  rw [OneOrMore.joined_append]
  refine (reads_items [] items.first items.more ls).bind ?_
  exact ((reads_symbol rfl ls).orMiss _).bind (reads_pure _ ls)

end Item

-- ---------------------------------------------------------------------------
-- Statements
-- ---------------------------------------------------------------------------

namespace TableDescription

def temporaryHeads : List Lexeme := [.keyword "TEMPORARY", .keyword "TEMP"] ++ [.keyword "TABLE"]

theorem heads_duration (duration : Option Duration) (ls : List Lexeme) :
    Heads temporaryHeads
      (keywordLexemes (duration.elim [] ([·.keyword])) ++ .keyword "TABLE" :: ls) := by
  refine (heads_cons _ ls).append ?_
  cases duration with
  | none => exact .inl rfl
  | some duration =>
    cases duration
    · exact .inr ⟨_, List.mem_cons_of_mem _ (List.mem_cons_self ..), rfl⟩
    · exact .inr ⟨_, List.mem_cons_self .., rfl⟩

end TableDescription

namespace Statement

theorem reads_scope (scope : Option Scope) (h : Heads TableDescription.temporaryHeads ls) :
    (present (anyKeyword ["GLOBAL", "LOCAL"])).Reads
      (keywordLexemes (scope.elim [] ([·.keyword])) ++ ls) scope.isSome ls := by
  cases scope with
  | none => exact (fails_anyKeyword rfl h rfl).present
  | some scope => exact (reads_anyKeyword rfl (by cases scope <;> decide) ls).present

theorem reads_duration (duration : Option Duration) (ls : List Lexeme) :
    (present (anyKeyword ["TEMPORARY", "TEMP"])).Reads
      (keywordLexemes (duration.elim [] ([·.keyword])) ++ .keyword "TABLE" :: ls)
      duration.isSome (.keyword "TABLE" :: ls) := by
  cases duration with
  | none => exact (fails_anyKeyword rfl (heads_cons _ _) rfl).present
  | some duration => exact (reads_anyKeyword rfl (by cases duration <;> decide) _).present

theorem reads_ifNotExists (ifNotExists : Bool) (parts : OneOrMore QuotedName) (ls : List Lexeme) :
    (present (keywords ["IF", "NOT", "EXISTS"])).Reads
      (lexemesIf ifNotExists ["IF", "NOT", "EXISTS"] ++
        (parts.joined .dot QuotedName.lexemes ++ ls)) ifNotExists
      (parts.joined .dot QuotedName.lexemes ++ ls) := by
  have hheads := heads_cons (.name parts.first.quote parts.first.text)
    (continued .dot QuotedName.lexemes parts.more ++ ls)
  cases ifNotExists with
  | false => exact (fails_keywords _ rfl hheads rfl).present
  | true => exact (reads_keywords rfl _).present

theorem reads_rule (d : TableDescription) (ls : List Lexeme) :
    rule.Reads (d.lexemes ++ ls) d.statement ls := by
  simp only [TableDescription.lexemes, List.cons_append, List.nil_append, List.append_assoc]
  refine ((reads_keyword rfl _).orMiss _).bind ?_
  refine (reads_scope d.scope (TableDescription.heads_duration d.duration _)).bind ?_
  refine (reads_duration d.duration _).bind ?_
  refine ((reads_keyword rfl _).orMiss _).bind ?_
  refine (reads_ifNotExists d.ifNotExists d.parts _).bind ?_
  refine (QualifiedName.reads_rule ['<', '>'] d.parts _).bind ?_
  exact (Item.reads_list d.items ls).bind (reads_pure _ ls)

end Statement

end TableSchema
