import TableSchema.Proofs.LetterCase.Token

/-!
# Statements and the case of letters

Two statements that were read from texts that differ in the case of letters: what the rules decide
is equal, and what they capture from the text differs in the case of letters again.
-/

namespace TableSchema

-- ---------------------------------------------------------------------------
-- Case mappings
-- ---------------------------------------------------------------------------

namespace SameLetter

theorem upperChar_eq (h : SameLetter c d) : Unicode.upperChar c = Unicode.upperChar d := by
  rcases h.eq_or_letters with rfl | ⟨hc, hd⟩
  · rfl
  · rw [Unicode.upperChar_ascii (toNat_lt_of_isAlpha hc),
      Unicode.upperChar_ascii (toNat_lt_of_isAlpha hd), h.toUpper_eq]

theorem lowerChar_eq (h : SameLetter c d) : Unicode.lowerChar c = Unicode.lowerChar d := by
  rcases h.eq_or_letters with rfl | ⟨hc, hd⟩
  · rfl
  · rw [Unicode.lowerChar_ascii (toNat_lt_of_isAlpha hc),
      Unicode.lowerChar_ascii (toNat_lt_of_isAlpha hd), h]

theorem isCased_eq (h : SameLetter c d) : Unicode.isCased c = Unicode.isCased d :=
  h.congr _ true (by decide +kernel)

theorem isCaseIgnorable_eq (h : SameLetter c d) :
    Unicode.isCaseIgnorable c = Unicode.isCaseIgnorable d :=
  h.congr _ false (by decide +kernel)

end SameLetter

theorem meetsCased_eq (h : SameText s t) : Unicode.meetsCased s = Unicode.meetsCased t := by
  have hd := SameText.dropWhile h fun _ _ => SameLetter.isCaseIgnorable_eq
  unfold Unicode.meetsCased
  generalize s.dropWhile Unicode.isCaseIgnorable = s' at hd ⊢
  generalize t.dropWhile Unicode.isCaseIgnorable = t' at hd ⊢
  cases hd with
  | nil => rfl
  | cons hc _ => exact hc.isCased_eq

/-- A letter in another case leaves it as it was whether a sigma ends a word. -/
theorem lowerAfter_eq (hb : SameText before before') (h : SameText s t) :
    Unicode.lowerAfter before s = Unicode.lowerAfter before' t := by
  induction h generalizing before before' with
  | nil => rfl
  | @cons c d s t hc hs ih =>
    have hends : Unicode.endsWord before s = Unicode.endsWord before' t := by
      rw [Unicode.endsWord, Unicode.endsWord, meetsCased_eq hb, meetsCased_eq hs]
    rw [Unicode.lowerAfter, Unicode.lowerAfter, ih (.cons hc hb), hends, hc.lowerChar_eq]
    simp only [hc.eq_iff (x := 'Σ') rfl]

namespace SameString

theorem upperCase_eq (h : SameString s t) : Unicode.upperCase s = Unicode.upperCase t := by
  have hm : s.toList.map Unicode.upperChar = t.toList.map Unicode.upperChar :=
    List.forall₂_eq_eq_eq ▸ List.rel_map (fun _ _ hc => hc.upperChar_eq) h
  rw [Unicode.upperCase, Unicode.upperCase, Unicode.upperChars, Unicode.upperChars,
    List.flatMap_def, List.flatMap_def, hm]

theorem lowerCase_eq (h : SameString s t) : Unicode.lowerCase s = Unicode.lowerCase t := by
  rw [Unicode.lowerCase, Unicode.lowerCase, Unicode.lowerChars, Unicode.lowerChars,
    lowerAfter_eq .nil h]

end SameString

-- ---------------------------------------------------------------------------
-- What a statement is made of
-- ---------------------------------------------------------------------------

structure QualifiedName.SameCase (a b : QualifiedName) : Prop where
  schema : Option.Rel SameString a.schema b.schema
  name : SameString a.name b.name

structure TypeSpec.SameCase (a b : TypeSpec) : Prop where
  words : List.Forall₂ SameString a.words b.words
  length : a.length = b.length
  scale : a.scale = b.scale
  unsigned : a.unsigned = b.unsigned
  zerofill : a.zerofill = b.zerofill
  dimensions : a.dimensions = b.dimensions

structure ColumnAttributes.SameCase (a b : ColumnAttributes) : Prop where
  nullability : a.nullability = b.nullability
  autoIncrement : a.autoIncrement = b.autoIncrement
  key : a.key = b.key
  defaultValue : Option.Rel SameString a.defaultValue b.defaultValue
  comment : Option.Rel SameString a.comment b.comment
  encoding : Option.Rel SameString a.encoding b.encoding
  distKey : a.distKey = b.distKey
  sortKey : a.sortKey = b.sortKey
  characterSet : Option.Rel SameString a.characterSet b.characterSet

inductive Attribute.SameCase : Attribute → Attribute → Prop
  | refl (a : Attribute) : SameCase a a
  | defaultValue : SameString s t → SameCase (.defaultValue s) (.defaultValue t)
  | comment : SameString s t → SameCase (.comment s) (.comment t)
  | encoding : SameString s t → SameCase (.encoding s) (.encoding t)
  | characterSet : SameString s t → SameCase (.characterSet s) (.characterSet t)

structure ColumnDefinition.SameCase (a b : ColumnDefinition) : Prop where
  name : SameString a.name b.name
  type : a.type.SameCase b.type
  attributes : a.attributes.SameCase b.attributes

structure Reference.SameCase (a b : Reference) : Prop where
  table : SameString a.table b.table
  columns : List.Forall₂ SameString a.columns b.columns
  matchMode : a.matchMode = b.matchMode
  onDelete : a.onDelete = b.onDelete
  onUpdate : a.onUpdate = b.onUpdate

structure Constraint.SameCase (a b : Constraint) : Prop where
  name : Option.Rel SameString a.name b.name
  kind : a.kind = b.kind
  columns : List.Forall₂ SameString a.columns b.columns
  references : Option.Rel Reference.SameCase a.references b.references

inductive Item.SameCase : Item → Item → Prop
  | column : a.SameCase b → SameCase (.column a) (.column b)
  | constraint : a.SameCase b → SameCase (.constraint a) (.constraint b)

structure Statement.SameCase (a b : Statement) : Prop where
  temporary : a.temporary = b.temporary
  name : a.name.SameCase b.name
  items : List.Forall₂ Item.SameCase a.items b.items

open Rule

theorem eq_of_rel {x y : Option α} (h : Option.Rel (· = ·) x y) : x = y := by
  cases h with
  | none => rfl
  | some h => rw [h]

-- ---------------------------------------------------------------------------
-- Types and values
-- ---------------------------------------------------------------------------

namespace TypeSpec

theorem alike_modifier : Alike SameText (· = ·) modifier modifier := by
  refine alike_firstOf (List.rel_map (R := Eq) (fun words _ h => ?_)
    (List.forall₂_same.mpr fun _ _ => rfl))
  subst h
  exact (alike_keywords words).seqRight (alike_pure rfl)

theorem alike_extend (h : List.Forall₂ SameString a b) :
    Alike SameText (List.Forall₂ SameString) (extend a) (extend b) := by
  refine alike_iterate (fun x y hxy => alike_modifier.map fun m _ hm => ?_) h
  subst hm
  exact List.rel_append hxy (List.forall₂_same.mpr fun word _ => SameString.refl word)

theorem alike_lengthGroup : Alike SameText (· = ·) lengthGroup lengthGroup := by
  have hlength : Alike SameText (· = ·) ((symbol "*" *> pure Length.any) <|> (.value <$> number))
      ((symbol "*" *> pure Length.any) <|> (.value <$> number)) :=
    ((alike_symbol "*" rfl).seqRight (alike_pure rfl)).orElse
      (alike_number.map fun _ _ h => congrArg Length.value h)
  have hscale : Alike SameText (· = ·) (ifPresent (symbol ",") (option number) (pure none))
      (ifPresent (symbol ",") (option number) (pure none)) :=
    (alike_symbol "," rfl).ifPresent (alike_number.option.imp fun _ _ => eq_of_rel)
      (alike_pure rfl)
  refine (alike_symbol "(" rfl).bind fun _ _ _ => ?_
  refine hlength.bind fun length _ hl => ?_
  subst hl
  refine hscale.bind fun scale _ hs => ?_
  subst hs
  refine (alike_anyKeyword _).present.bind fun _ _ _ => ?_
  exact (alike_symbol ")" rfl).bind fun _ _ _ => alike_pure rfl

theorem alike_extendBehind (group : Option (Length × Option Nat))
    (h : List.Forall₂ SameString a b) :
    Alike SameText (List.Forall₂ SameString) (extendBehind group a) (extendBehind group b) :=
  alike_ite _ (alike_extend h) (alike_pure h)

theorem alike_flag (h : SameCase a b) : Alike SameText SameCase (flag a) (flag b) := by
  obtain ⟨words, length, scale, unsigned, zerofill, dimensions⟩ := a
  obtain ⟨words', _, _, _, _, _⟩ := b
  obtain ⟨hwords, hl, hs, hu, hz, hd⟩ := h
  dsimp only at hwords hl hs hu hz hd
  subst hl hs hu hz hd
  exact (alike_ite _ alike_never
      ((alike_keyword _).seqRight (alike_pure ⟨hwords, rfl, rfl, rfl, rfl, rfl⟩))).orElse
    (alike_ite _ alike_never
      ((alike_keyword _).seqRight (alike_pure ⟨hwords, rfl, rfl, rfl, rfl, rfl⟩)))

theorem alike_bracket : Alike SameText (· = ·) bracket bracket := by
  refine (alike_symbol "[" rfl).bind fun _ _ _ => ?_
  exact alike_number.option.bind fun _ _ _ => alike_symbol "]" rfl

theorem alike_brackets : Alike SameText (· = ·) brackets brackets :=
  alike_iterate (fun _ _ h => alike_bracket.map fun _ _ _ => congrArg (· + 1) h) rfl

theorem alike_rule : Alike SameText SameCase rule rule := by
  refine alike_word.bind fun first first' hfirst => ?_
  refine (alike_extend (.cons hfirst .nil)).bind fun words words' hwords => ?_
  refine (alike_lengthGroup.option.imp fun _ _ => eq_of_rel).bind fun group _ hg => ?_
  subst hg
  refine (alike_extendBehind group hwords).bind fun words words' hwords => ?_
  have hplain : SameCase { words, length := group.map (·.1), scale := group.bind (·.2) }
      { words := words', length := group.map (·.1), scale := group.bind (·.2) } :=
    ⟨hwords, rfl, rfl, rfl, rfl, rfl⟩
  refine (alike_iterate (fun _ _ => alike_flag) hplain).bind fun type type' ht => ?_
  refine alike_brackets.bind fun dimensions _ hd => ?_
  subst hd
  exact alike_pure { ht with dimensions := rfl }

end TypeSpec

namespace Value

theorem alike_cast : Alike SameText (· = ·) cast cast :=
  (alike_symbol "::" rfl).seqRight (TypeSpec.alike_rule.map fun _ _ _ => rfl)

theorem alike_castExpression : Alike SameText (· = ·) castExpression castExpression := by
  have hoperand : Alike SameText SameString operand operand :=
    (alike_literal '\'' rfl).orElse ((alike_literal '"' rfl).orElse (alike_bare true))
  refine hoperand.bind fun _ _ _ => ?_
  exact alike_cast.bind fun _ _ _ => alike_iterate (fun _ _ _ => alike_cast) rfl

theorem alike_source {p : Rule α} {q : Rule β} (h : Alike SameText R p q) :
    Alike SameText SameText p.source q.source := by
  intro s t hst
  have hskip := Scan.sameText_skipTrivia hst
  obtain ⟨hr, hm⟩ := h hskip
  refine ⟨?_, hm⟩
  dsimp only [source]
  generalize (p.run (Scan.skipTrivia s)).result = x at hr
  generalize (q.run (Scan.skipTrivia t)).result = y at hr
  cases hr with
  | none => exact .none
  | @some x y hr =>
    refine .some ⟨?_, hr.2⟩
    dsimp only
    rw [hskip.length_eq, hr.2.length_eq]
    exact List.forall₂_take _ hskip

theorem alike_rule : Alike SameText SameString rule rule :=
  ((alike_source alike_castExpression).map fun _ _ => SameString.ofList).orElse
    ((alike_literal '\'' rfl).orElse ((alike_literal '"' rfl).orElse (alike_bare false)))

end Value

-- ---------------------------------------------------------------------------
-- Attributes
-- ---------------------------------------------------------------------------

namespace Attribute

theorem SameCase.kind_eq (h : SameCase a b) : a.kind = b.kind := by
  cases h <;> rfl

theorem alike_rule (kind : Kind) : Alike SameText SameCase (rule kind) (rule kind) := by
  have hpure (a : Attribute) : Alike SameText SameCase (pure a) (pure a) := alike_pure (.refl a)
  cases kind with
  | nullability =>
    exact ((alike_keywords _).seqRight (hpure _)).orElse ((alike_keyword _).seqRight (hpure _))
  | autoIncrement => exact (alike_anyKeyword _).seqRight (hpure _)
  | key =>
    exact (((alike_keyword _).seqRight (hpure _)).orElse
      ((alike_keyword _).seqRight (hpure _))).seqLeft (alike_keyword _).present
  | defaultValue =>
    exact (alike_keyword _).seqRight (Value.alike_rule.map fun _ _ => .defaultValue)
  | comment => exact (alike_keyword _).seqRight (Value.alike_rule.map fun _ _ => .comment)
  | encoding => exact (alike_keyword _).seqRight (alike_word.map fun _ _ => .encoding)
  | distKey | sortKey => exact (alike_keyword _).seqRight (hpure _)
  | characterSet =>
    refine ((alike_keywords _).orElse (alike_keyword _)).bind fun _ _ _ => ?_
    refine (alike_symbol "=" rfl).present.bind fun _ _ _ => ?_
    exact (alike_identifier [] rfl).map fun _ _ => .characterSet

end Attribute

namespace ColumnAttributes

theorem record_sameCase (h : SameCase a b) (hc : Attribute.SameCase c d) :
    SameCase (a.record c) (b.record d) := by
  cases hc with
  | refl c =>
    have hs (text : String) : Option.Rel SameString (some text) (some text) :=
      .some (SameString.refl text)
    cases c with
    | nullability _ => exact { h with nullability := rfl }
    | autoIncrement => exact { h with autoIncrement := rfl }
    | key _ => exact { h with key := rfl }
    | defaultValue text => exact { h with defaultValue := hs text }
    | comment text =>
      refine { h with comment := ?_ }
      dsimp only [record]
      split
      · exact .none
      · exact hs text
    | encoding name => exact { h with encoding := hs name }
    | distKey => exact { h with distKey := rfl }
    | sortKey => exact { h with sortKey := rfl }
    | characterSet name => exact { h with characterSet := hs name }
  | defaultValue hs => exact { h with defaultValue := .some hs }
  | comment hs =>
    refine { h with comment := ?_ }
    simp only [record, hs.eq_empty_iff]
    split
    · exact .none
    · exact .some hs
  | encoding hs => exact { h with encoding := .some hs }
  | characterSet hs => exact { h with characterSet := .some hs }

/-- What two runs have read of the attributes of a column. -/
structure Progress.SameCase (p q : Progress) : Prop where
  attributes : p.attributes.SameCase q.attributes
  pending : p.pending = q.pending

theorem alike_clauseOrUnclaimed (h : Progress.SameCase p q) :
    Alike SameText Progress.SameCase (clauseOrUnclaimed p) (clauseOrUnclaimed q) := by
  have hkinds : List.Forall₂ (Alike SameText Attribute.SameCase)
      (p.pending.map Attribute.rule) (q.pending.map Attribute.rule) := by
    rw [h.pending]
    exact List.rel_map (R := Eq) (fun kind _ hk => hk ▸ Attribute.alike_rule kind)
      (List.forall₂_same.mpr fun _ _ => rfl)
  refine ((alike_firstOf hkinds).map fun a b hab => ?_).orElse
    (alike_unclaimed.seqRight (alike_pure h))
  exact ⟨record_sameCase h.attributes hab, by rw [h.pending, hab.kind_eq]⟩

theorem alike_rule : Alike SameText SameCase rule rule := by
  have hnone : Progress.SameCase {} {} :=
    ⟨⟨rfl, rfl, rfl, .none, .none, .none, rfl, rfl, .none⟩, rfl⟩
  exact (alike_iterate (fun _ _ => alike_clauseOrUnclaimed) hnone).map fun _ _ h => h.attributes

end ColumnAttributes

-- ---------------------------------------------------------------------------
-- Constraints
-- ---------------------------------------------------------------------------

namespace QualifiedName

theorem ofParts_sameCase (h : List.Forall₂ SameString a b) :
    SameCase (ofParts a) (ofParts b) := by
  have hinit : List.Forall₂ SameString a.dropLast b.dropLast := by
    rw [List.dropLast_eq_take, List.dropLast_eq_take, h.length_eq]
    exact List.forall₂_take _ h
  have hempty : a.dropLast.isEmpty = b.dropLast.isEmpty := by
    rw [Bool.eq_iff_iff, List.isEmpty_iff_length_eq_zero, List.isEmpty_iff_length_eq_zero,
      hinit.length_eq]
  have hlast : SameString (a.getLastD "") (b.getLastD "") := by
    have hr := List.forall₂_reverse_iff.mpr h
    rw [List.getLastD_eq_getLast?, List.getLastD_eq_getLast?, List.getLast?_eq_head?_reverse,
      List.getLast?_eq_head?_reverse]
    generalize a.reverse = a' at hr ⊢
    generalize b.reverse = b' at hr ⊢
    cases hr with
    | nil => exact SameString.refl _
    | cons hs _ => exact hs
  refine ⟨?_, hlast⟩
  dsimp only [ofParts]
  rw [hempty]
  split
  · exact .none
  · exact .some (SameString.intercalate "." hinit)

theorem text_sameCase (h : SameCase a b) : SameString a.text b.text := by
  obtain ⟨_, name⟩ := a
  obtain ⟨_, name'⟩ := b
  obtain ⟨hs, hn⟩ := h
  cases hs with
  | none => exact hn
  | some hs => exact (hs.append (SameString.refl ".")).append hn

theorem alike_rule (extra : List Char) (he : extra.all (!·.isAlpha) = true) :
    Alike SameText SameCase (rule extra) (rule extra) :=
  ((alike_orMiss (alike_identifier extra he) _).separated
    (alike_symbol "." rfl)).map fun _ _ => ofParts_sameCase

end QualifiedName

theorem alike_columnList : Alike SameText (List.Forall₂ SameString) columnList columnList := by
  have hlength : Alike SameText (· = ·) indexLength indexLength := by
    refine (alike_symbol "(" rfl).bind fun _ _ _ => ?_
    exact alike_number.bind fun _ _ _ => alike_symbol ")" rfl
  have hcolumn : Alike SameText SameString indexedColumn indexedColumn := by
    refine (alike_orMiss (alike_identifier [] rfl) _).bind fun _ _ hname => ?_
    refine hlength.present.bind fun _ _ _ => ?_
    exact (alike_anyKeyword _).present.bind fun _ _ _ => alike_pure hname
  refine (alike_orMiss (alike_symbol "(" rfl) _).bind fun _ _ _ => ?_
  refine (hcolumn.separated (alike_symbol "," rfl)).bind fun _ _ hcolumns => ?_
  exact (alike_orMiss (alike_symbol ")" rfl) _).bind fun _ _ _ => alike_pure hcolumns

theorem ReferentialAction.alike_rule : Alike SameText (· = ·) rule rule :=
  ((alike_keyword _).seqRight (alike_pure rfl)).orElse
    (((alike_keyword _).seqRight (alike_pure rfl)).orElse
      (((alike_keywords _).seqRight (alike_pure rfl)).orElse
        ((alike_keywords _).seqRight (alike_pure rfl))))

namespace Reference

theorem alike_event (h : SameCase a b) : Alike SameText SameCase (event a) (event b) := by
  have honDelete : Alike SameText (· = ·)
      (keyword "DELETE" *> pure true <|> keyword "UPDATE" *> pure false)
      (keyword "DELETE" *> pure true <|> keyword "UPDATE" *> pure false) :=
    ((alike_keyword _).seqRight (alike_pure rfl)).orElse
      ((alike_keyword _).seqRight (alike_pure rfl))
  refine (alike_keyword _).bind fun _ _ _ => ?_
  refine honDelete.bind fun onDelete _ hd => ?_
  subst hd
  refine ReferentialAction.alike_rule.bind fun action _ ha => ?_
  subst ha
  cases onDelete
  · exact alike_pure { h with onUpdate := rfl }
  · exact alike_pure { h with onDelete := rfl }

theorem alike_rule : Alike SameText SameCase rule rule := by
  refine (alike_keyword _).bind fun _ _ _ => ?_
  refine (QualifiedName.alike_rule [] rfl).bind fun table table' htable => ?_
  refine ((alike_symbol "(" rfl).ifAhead alike_columnList (alike_pure .nil)).bind
    fun columns columns' hcolumns => ?_
  refine ((alike_keyword _).ifPresent alike_word.option (alike_pure .none)).bind
    fun mode mode' hmode => ?_
  refine alike_iterate (fun _ _ => alike_event)
    ⟨QualifiedName.text_sameCase htable, hcolumns, ?_, rfl, rfl⟩
  cases hmode with
  | none => rfl
  | some hmode => exact congrArg some hmode.upperCase_eq

end Reference

theorem ConstraintKind.alike_rule : Alike SameText (· = ·) rule rule :=
  ((alike_keywords _).seqRight (alike_pure rfl)).orElse
    ((((alike_keyword _).seqRight (alike_anyKeyword _).present).seqRight (alike_pure rfl)).orElse
      (((alike_keywords _).seqRight (alike_pure rfl)).orElse
        ((alike_keywords _).seqRight (alike_pure rfl))))

theorem Constraint.alike_rule : Alike SameText SameCase rule rule := by
  have hname (expected : Expectation) : Alike SameText (Option.Rel SameString)
      (some <$> (identifier []).orMiss expected) (some <$> (identifier []).orMiss expected) :=
    (alike_orMiss (alike_identifier [] rfl) _).map fun _ _ => .some
  refine ((alike_keyword _).ifPresent (hname _) (alike_pure .none)).bind
    fun first first' hfirst => ?_
  have hkind : Alike SameText (· = ·)
      (ConstraintKind.rule <|> (if first.isSome then miss .constraintKind else never))
      (ConstraintKind.rule <|> (if first'.isSome then miss .constraintKind else never)) := by
    have hsome : first.isSome = first'.isSome := by cases hfirst <;> rfl
    rw [hsome]
    have hmiss : Alike SameText (· = ·) (miss .constraintKind : Rule ConstraintKind)
        (miss .constraintKind) := alike_miss (T := SameText) (fun _ _ => Scan.sameText_skipTrivia) _
    exact ConstraintKind.alike_rule.orElse (alike_ite _ hmiss alike_never)
  refine hkind.bind fun kind _ hk => ?_
  subst hk
  refine ((alike_symbol "(" rfl).ifAhead (alike_pure .none) (hname _)).bind
    fun second second' hsecond => ?_
  refine alike_columnList.bind fun columns columns' hcolumns => ?_
  have hreferences : Alike SameText (Option.Rel Reference.SameCase) (Reference.ofKind kind)
      (Reference.ofKind kind) := by
    unfold Reference.ofKind
    split
    · exact Reference.alike_rule.option
    · exact alike_pure .none
  refine hreferences.bind fun references references' href => ?_
  refine alike_restOfItem.bind fun _ _ _ => alike_pure ⟨?_, rfl, hcolumns, href⟩
  cases hfirst with
  | none => exact hsecond
  | some h => exact .some h

-- ---------------------------------------------------------------------------
-- Items and statements
-- ---------------------------------------------------------------------------

theorem ColumnDefinition.alike_rule : Alike SameText SameCase rule rule := by
  refine (alike_orMiss (alike_identifier [] rfl) _).bind fun name name' hname => ?_
  refine (alike_orMiss TypeSpec.alike_rule _).bind fun type type' htype => ?_
  exact ColumnAttributes.alike_rule.bind fun _ _ h => alike_pure ⟨hname, htype, h⟩

namespace Item

theorem alike_groupAhead : Alike SameText (· = ·) groupAhead groupAhead :=
  (alike_symbol "(" rfl).ifAhead (alike_pure rfl) alike_never

theorem alike_dropped : Alike SameText (· = ·) dropped dropped := by
  have hname : Alike SameText (Option.Rel SameString) (some <$> identifier [])
      (some <$> identifier []) := (alike_identifier [] rfl).map fun _ _ => .some
  have hcheck : Alike SameText (· = ·) check check := by
    refine ((alike_keyword _).ifPresent hname (alike_pure .none)).bind fun _ _ _ => ?_
    refine (alike_keyword _).bind fun _ _ _ => ?_
    exact alike_groupAhead.bind fun _ _ _ => alike_restOfItem
  have hindex : Alike SameText (· = ·) index index := by
    refine (alike_anyKeyword _).present.bind fun _ _ _ => ?_
    refine (alike_anyKeyword _).bind fun _ _ _ => ?_
    refine ((alike_symbol "(" rfl).ifAhead (alike_pure .none) hname).bind fun _ _ _ => ?_
    exact alike_groupAhead.bind fun _ _ _ => alike_restOfItem
  exact hcheck.orElse hindex

theorem alike_rule : Alike SameText (Option.Rel SameCase) rule rule :=
  (alike_dropped.seqRight (alike_pure .none)).orElse
    ((Constraint.alike_rule.map fun _ _ h => .some (.constraint h)).orElse
      (ColumnDefinition.alike_rule.map fun _ _ h => .some (.column h)))

theorem alike_list : Alike SameText (List.Forall₂ SameCase) list list := by
  refine (alike_orMiss (alike_symbol "(" rfl) _).bind fun _ _ _ => ?_
  have hround (a b : List Item) (hab : List.Forall₂ SameCase a b) :
      Alike SameText (Round.Alike (List.Forall₂ SameCase) (List.Forall₂ SameCase)) (round a)
        (round b) := by
    refine (alike_symbol ")" rfl).ifAhead (alike_pure (.finish hab)) ?_
    refine alike_rule.bind fun item item' hitem => ?_
    have hitems : List.Forall₂ SameCase (a ++ item.toList) (b ++ item'.toList) := by
      refine List.rel_append hab ?_
      cases hitem with
      | none => exact .nil
      | some h => exact .cons h .nil
    exact (alike_symbol "," rfl).ifPresent (alike_pure (.again hitems))
      (alike_pure (.finish hitems))
  refine (alike_loop hround .nil).bind fun items items' hitems => ?_
  exact (alike_orMiss (alike_symbol ")" rfl) _).bind fun _ _ _ => alike_pure hitems

end Item

namespace Statement

theorem alike_rule : Alike SameText SameCase rule rule := by
  refine (alike_orMiss (alike_keyword _) _).bind fun _ _ _ => ?_
  refine (alike_anyKeyword _).present.bind fun _ _ _ => ?_
  refine (alike_anyKeyword _).present.bind fun temporary _ htemp => ?_
  subst htemp
  refine (alike_orMiss (alike_keyword _) _).bind fun _ _ _ => ?_
  refine (alike_keywords _).present.bind fun _ _ _ => ?_
  refine (QualifiedName.alike_rule ['<', '>'] rfl).bind fun name name' hname => ?_
  exact Item.alike_list.bind fun _ _ hitems => alike_pure ⟨rfl, hname, hitems⟩

theorem alike_head : Alike SameText (· = ·) head head := by
  refine (alike_keyword _).bind fun _ _ _ => ?_
  refine (alike_anyKeyword _).present.bind fun _ _ _ => ?_
  refine (alike_anyKeyword _).present.bind fun _ _ _ => ?_
  exact alike_keyword _

end Statement

end TableSchema
