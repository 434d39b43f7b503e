import TableSchema.Proofs.Continuation.Token
import TableSchema.Proofs.StatementLaws

/-!
# Statements in a text that goes on

Every rule that some other rule falls back from is local, or at least persists and refuses. The rule
of a whole statement persists. So a statement that ends at a semicolon is read in the same way
whatever follows the semicolon.
-/

namespace TableSchema

open Rule Scan

-- ---------------------------------------------------------------------------
-- Types
-- ---------------------------------------------------------------------------

namespace TypeSpec

theorem local_modifier : modifier.Local := by
  refine local_firstOf fun p hp => ?_
  obtain ⟨words, hw, rfl⟩ := List.mem_map.mp hp
  refine (local_keywords ?_).seqRight (local_pure words)
  have hall : modifiers.all (fun words => words.all isCapital) = true := rfl
  exact List.all_eq_true.mp hall words hw

theorem local_extend (words : List String) : (extend words).Local :=
  local_iterate (fun _ => local_modifier.map _) words

theorem local_lengthGroup : lengthGroup.Local := by
  refine (local_symbol rfl).bind fun _ => ?_
  refine (((local_symbol rfl).seqRight (local_pure _)).orElse (local_number.map _)).bind
    fun length => ?_
  refine ((local_symbol rfl).ifPresent local_number.option (local_pure none)).bind fun scale => ?_
  refine (local_anyKeyword rfl).present.bind fun _ => ?_
  exact (local_symbol rfl).bind fun _ => local_pure _

theorem local_extendBehind (group : Option (Length × Option Nat)) (words : List String) :
    (extendBehind group words).Local :=
  local_ite _ (local_extend words) (local_pure words)

theorem local_flag (type : TypeSpec) : (flag type).Local :=
  (local_ite _ local_never ((local_keyword rfl).seqRight (local_pure _))).orElse
    (local_ite _ local_never ((local_keyword rfl).seqRight (local_pure _)))

theorem local_bracket : bracket.Local :=
  (local_symbol rfl).bind fun _ => local_number.option.bind fun _ => local_symbol rfl

theorem local_rule : rule.Local := by
  refine local_word.bind fun first => ?_
  refine (local_extend _).bind fun words => ?_
  refine local_lengthGroup.option.bind fun group => ?_
  refine (local_extendBehind group words).bind fun words => ?_
  refine (local_iterate local_flag _).bind fun type => ?_
  exact (local_iterate (fun _ => local_bracket.map _) 0).bind fun _ => local_pure _

end TypeSpec

-- ---------------------------------------------------------------------------
-- Values
-- ---------------------------------------------------------------------------

namespace Value

theorem local_cast : cast.Local := (local_symbol rfl).seqRight (TypeSpec.local_rule.map _)

theorem settled_operand : operand.Settled :=
  (local_literal rfl).toSettled.orElse ((local_literal rfl).toSettled.orElse (settled_bare true))

/-- The casts behind an operand. -/
theorem local_casts : (do cast; iterate (fun _ => cast) (fun _ => consumes_cast) ()).Local :=
  local_cast.bind fun _ => local_iterate (fun _ => local_cast) ()

theorem persists_castExpression : castExpression.Persists :=
  settled_operand.persists.bind fun _ => local_casts.persists

theorem read_castExpression_append (h : Plain s) (hs : Closed s) (hr : castExpression.read s = none)
    (hmiddle : ∀ w middle, operand.read s = some (w, middle) → Closed middle) (x : List Char) :
    castExpression.read (s ++ x) = none := by
  unfold castExpression at hr ⊢
  rw [read_bind] at hr ⊢
  cases ho : operand.read s with
  | none => rw [settled_operand.refuses h hs ho]; rfl
  | some found =>
    obtain ⟨w, middle⟩ := found
    have hm := hmiddle w middle ho
    rw [ho] at hr
    rw [(settled_operand.persists h ho hm).2 x]
    exact local_casts.refuses (h.suffix (read_suffix ho)) hm hr x

theorem read_castSource_append (h : Plain s) (hs : Closed s)
    (hr : (String.ofList <$> source castExpression).read s = none)
    (hmiddle : ∀ w middle, operand.read (skipTrivia s) = some (w, middle) → Closed middle)
    (x : List Char) : (String.ofList <$> source castExpression).read (s ++ x) = none := by
  rw [read_map, Option.map_eq_none_iff, read_source, Option.map_eq_none_iff] at hr ⊢
  rw [skipTrivia_append h hs]
  exact read_castExpression_append (h.suffix (skipTrivia_suffix s))
    ((closed_skipTrivia_iff h).mpr hs) hr hmiddle x

/-- A value without casts. -/
def uncast : Rule String := literal '\'' <|> literal '"' <|> bare false

theorem rule_eq : rule = (String.ofList <$> source castExpression <|> uncast) := rfl

theorem settled_uncast : uncast.Settled :=
  (local_literal rfl).toSettled.orElse ((local_literal rfl).toSettled.orElse (settled_bare false))

theorem read_uncast (s : List Char) :
    uncast.read s =
      ((literal '\'').read s).or (((literal '"').read s).or ((bare false).read s)) := by
  rw [uncast, read_orElse, read_orElse]

theorem read_operand (s : List Char) :
    operand.read s =
      ((literal '\'').read s).or (((literal '"').read s).or ((bare true).read s)) := by
  rw [operand, read_orElse, read_orElse]

theorem read_uncast_skipTrivia (s : List Char) : uncast.read (skipTrivia s) = uncast.read s := by
  simp only [read_uncast, read_literal, read_bare, skipTrivia_skipTrivia]

/-- The operand ends within the value, so it leaves no literal open if the value does not. -/
theorem closed_of_uncast (hr : uncast.read s = some (v, rest)) (hrest : Closed rest)
    (ho : operand.read s = some (w, middle)) : Closed middle := by
  rw [read_uncast] at hr
  rw [read_operand] at ho
  cases h1 : (literal '\'').read s with
  | some found =>
    rw [h1] at hr ho
    cases hr
    cases ho
    exact hrest
  | none =>
    rw [h1] at hr ho
    cases h2 : (literal '"').read s with
    | some found =>
      rw [h2] at hr ho
      cases hr
      cases ho
      exact hrest
    | none =>
      rw [h2, Option.none_or, Option.none_or, read_bare] at hr ho
      split at hr
      next => cases hr
      split at ho
      next => cases ho
      cases hr
      cases ho
      rw [← pastBare_pastBare] at hrest
      exact closed_of_pastBare hrest

/-- Where no value begins no operand does. -/
theorem read_operand_of_uncast (hr : uncast.read s = none) : operand.read s = none := by
  rw [read_uncast, Option.or_eq_none_iff, Option.or_eq_none_iff] at hr
  obtain ⟨h1, h2, hb⟩ := hr
  rw [read_operand, h1, h2, Option.none_or, Option.none_or, read_bare, if_pos]
  rw [read_bare] at hb
  split at hb
  next he => exact endsBare_of_false he
  next => cases hb

theorem settled_rule : rule.Settled := by
  rw [rule_eq]
  constructor
  · intro s v rest h hr hrest
    rcases read_orElse_eq_some.mp hr with hr | ⟨hn, hr⟩
    · obtain ⟨hs, hr⟩ := (persists_castExpression.source.map String.ofList) h hr hrest
      exact ⟨hs, fun x => read_orElse_eq_some.mpr (.inl (hr x))⟩
    · obtain ⟨hs, hrx⟩ := settled_uncast.persists h hr hrest
      refine ⟨hs, fun x => read_orElse_eq_some.mpr (.inr ⟨?_, hrx x⟩)⟩
      refine read_castSource_append h hs hn (fun w middle ho => ?_) x
      exact closed_of_uncast (by rw [read_uncast_skipTrivia, hr]) hrest ho
  · intro s h hs hr x
    rw [read_orElse, Option.or_eq_none_iff] at hr ⊢
    obtain ⟨hn, hr⟩ := hr
    refine ⟨?_, settled_uncast.refuses h hs hr x⟩
    refine read_castSource_append h hs hn (fun w middle ho => ?_) x
    rw [read_operand_of_uncast (by rw [read_uncast_skipTrivia, hr])] at ho
    cases ho

end Value

-- ---------------------------------------------------------------------------
-- Attributes
-- ---------------------------------------------------------------------------

namespace Attribute

theorem settled_rule (kind : Kind) : (rule kind).Settled := by
  cases kind with
  | nullability =>
    exact (((local_keywords rfl).seqRight (local_pure _)).orElse
      ((local_keyword rfl).seqRight (local_pure _))).toSettled
  | autoIncrement => exact ((local_anyKeyword rfl).seqRight (local_pure _)).toSettled
  | key =>
    exact ((((local_keyword rfl).seqRight (local_pure _)).orElse
      ((local_keyword rfl).seqRight (local_pure _))).seqLeft (local_keyword rfl).present).toSettled
  | defaultValue | comment =>
    exact (local_keyword rfl).bind_settled fun _ => Value.settled_rule.map _
  | encoding => exact ((local_keyword rfl).seqRight (local_word.map _)).toSettled
  | distKey | sortKey => exact ((local_keyword rfl).seqRight (local_pure _)).toSettled
  | characterSet =>
    exact (((local_keywords rfl).orElse (local_keyword rfl)).bind fun _ =>
      (local_symbol rfl).present.bind fun _ => (local_identifier rfl).map _).toSettled

end Attribute

namespace ColumnAttributes

theorem settled_clause (progress : Progress) : (clause progress).Settled := by
  refine (settled_firstOf fun p hp => ?_).map _
  obtain ⟨kind, _, rfl⟩ := List.mem_map.mp hp
  exact Attribute.settled_rule kind

theorem settled_rule : rule.Settled :=
  (settled_iterate (fun progress => (settled_clause progress).orElse
    (settled_unclaimed.map fun _ => progress)) {}).map _

end ColumnAttributes

-- ---------------------------------------------------------------------------
-- Constraints
-- ---------------------------------------------------------------------------

theorem QualifiedName.local_rule {extra : List Char} (h : extra.all isInert = true) :
    (QualifiedName.rule extra).Local :=
  (((local_identifier h).orMiss .tableName).separated (local_symbol rfl)).map _

theorem local_indexLength : indexLength.Local :=
  (local_symbol rfl).bind fun _ => local_number.bind fun _ => local_symbol rfl

theorem local_indexedColumn : indexedColumn.Local := by
  refine ((local_identifier rfl).orMiss _).bind fun column => ?_
  refine local_indexLength.present.bind fun _ => ?_
  exact (local_anyKeyword rfl).present.bind fun _ => local_pure column

theorem local_columnList : columnList.Local := by
  refine ((local_symbol rfl).orMiss _).bind fun _ => ?_
  refine (local_indexedColumn.separated (local_symbol rfl)).bind fun columns => ?_
  exact ((local_symbol rfl).orMiss _).bind fun _ => local_pure columns

theorem ReferentialAction.local_rule : ReferentialAction.rule.Local :=
  ((local_keyword rfl).seqRight (local_pure _)).orElse
    (((local_keyword rfl).seqRight (local_pure _)).orElse
      (((local_keywords rfl).seqRight (local_pure _)).orElse
        ((local_keywords rfl).seqRight (local_pure _))))

namespace Reference

theorem local_event (reference : Reference) : (event reference).Local := by
  refine (local_keyword rfl).bind fun _ => ?_
  refine (((local_keyword rfl).seqRight (local_pure _)).orElse
    ((local_keyword rfl).seqRight (local_pure _))).bind fun onDelete => ?_
  exact ReferentialAction.local_rule.bind fun action => local_pure _

theorem local_rule : rule.Local := by
  refine (local_keyword rfl).bind fun _ => ?_
  refine (QualifiedName.local_rule rfl).bind fun table => ?_
  refine ((local_symbol rfl).ifAhead local_columnList (local_pure [])).bind fun columns => ?_
  refine ((local_keyword rfl).ifPresent local_word.option (local_pure none)).bind
    fun matchMode => ?_
  exact local_iterate local_event _

theorem local_ofKind (kind : ConstraintKind) : (ofKind kind).Local :=
  local_ite _ local_rule.option (local_pure none)

end Reference

theorem ConstraintKind.local_rule : ConstraintKind.rule.Local :=
  ((local_keywords rfl).seqRight (local_pure _)).orElse
    ((((local_keyword rfl).seqRight (local_anyKeyword rfl).present).seqRight (local_pure _)).orElse
      (((local_keywords rfl).seqRight (local_pure _)).orElse
        ((local_keywords rfl).seqRight (local_pure _))))

theorem Constraint.settled_rule : Constraint.rule.Settled := by
  have hname (expected : Expectation) : (some <$> (identifier []).orMiss expected).Local :=
    ((local_identifier rfl).orMiss expected).map some
  refine ((local_keyword rfl).ifPresent (hname _) (local_pure none)).bind_settled fun first => ?_
  refine (ConstraintKind.local_rule.orElse
    (local_ite _ (local_miss _) local_never)).bind_settled fun kind => ?_
  refine ((local_symbol rfl).ifAhead (local_pure none) (hname _)).bind_settled fun second => ?_
  refine local_columnList.bind_settled fun columns => ?_
  refine (Reference.local_ofKind kind).bind_settled fun references => ?_
  exact settled_restOfItem.map _

-- ---------------------------------------------------------------------------
-- Items and statements
-- ---------------------------------------------------------------------------

theorem ColumnDefinition.persists_rule : ColumnDefinition.rule.Persists := by
  refine ((local_identifier rfl).orMiss _).persists.bind fun name => ?_
  refine (TypeSpec.local_rule.orMiss _).persists.bind fun type => ?_
  exact ColumnAttributes.settled_rule.persists.map _

namespace Item

theorem local_groupAhead : groupAhead.Local :=
  (local_symbol rfl).ifAhead (local_pure ()) local_never

theorem settled_check : check.Settled := by
  refine ((local_keyword rfl).ifPresent ((local_identifier rfl).map some)
    (local_pure none)).bind_settled fun _ => ?_
  refine (local_keyword rfl).bind_settled fun _ => ?_
  exact local_groupAhead.bind_settled fun _ => settled_restOfItem

theorem settled_index : index.Settled := by
  refine (local_anyKeyword rfl).present.bind_settled fun _ => ?_
  refine (local_anyKeyword rfl).bind_settled fun _ => ?_
  refine ((local_symbol rfl).ifAhead (local_pure none)
    ((local_identifier rfl).map some)).bind_settled fun _ => ?_
  exact local_groupAhead.bind_settled fun _ => settled_restOfItem

theorem persists_rule : rule.Persists := by
  have hdropped : (dropped *> pure (none : Option Item)).Settled :=
    (settled_check.orElse settled_index).map fun _ => none
  have hconstraint := Constraint.settled_rule.map fun c => some (constraint c)
  exact hdropped.persists.orElse hdropped.refuses
    (hconstraint.persists.orElse hconstraint.refuses (ColumnDefinition.persists_rule.map _))

theorem persists_round (items : List Item) : (round items).Persists := by
  refine Persists.ifAhead (local_symbol rfl) (local_pure _).persists ?_
  refine persists_rule.bind fun item => ?_
  exact Persists.ifPresent (local_symbol rfl) (local_pure _).persists (local_pure _).persists

theorem persists_list : list.Persists := by
  refine ((local_symbol rfl).orMiss _).persists.bind fun _ => ?_
  refine (persists_loop persists_round []).bind fun items => ?_
  exact (((local_symbol rfl).orMiss _).bind fun _ => local_pure items).persists

end Item

namespace Statement

theorem persists_rule : rule.Persists := by
  refine ((local_keyword rfl).orMiss _).persists.bind fun _ => ?_
  refine (local_anyKeyword rfl).present.persists.bind fun _ => ?_
  refine (local_anyKeyword rfl).present.persists.bind fun temporary => ?_
  refine ((local_keyword rfl).orMiss _).persists.bind fun _ => ?_
  refine (local_keywords rfl).present.persists.bind fun _ => ?_
  refine (QualifiedName.local_rule rfl).persists.bind fun name => ?_
  exact Item.persists_list.map _

theorem local_head : head.Local := by
  refine (local_keyword rfl).bind fun _ => ?_
  refine (local_anyKeyword rfl).present.bind fun _ => ?_
  exact (local_anyKeyword rfl).present.bind fun _ => local_keyword rfl

end Statement

end TableSchema
