import TableSchema.Proofs.LetterCase.Statement
import TableSchema.Proofs.StatementLaws
import TableSchema.Table

/-!
# Tables and the case of letters

Reading a table takes no notice of the case of ASCII letters, wherever they stand: two texts that
differ in it give tables, or errors, that differ in nothing else. `Table.parse_sameCase` is the main
theorem.
-/

namespace TableSchema

-- ---------------------------------------------------------------------------
-- Tables and errors that differ in the case of letters
-- ---------------------------------------------------------------------------

structure Column.SameCase (a b : Column) : Prop where
  name : SameString a.name b.name
  dataType : a.dataType = b.dataType
  length : a.length = b.length
  scale : a.scale = b.scale
  dimensions : a.dimensions = b.dimensions
  notNull : a.notNull = b.notNull
  primaryKey : a.primaryKey = b.primaryKey
  unique : a.unique = b.unique
  unsigned : a.unsigned = b.unsigned
  zerofill : a.zerofill = b.zerofill
  autoIncrement : a.autoIncrement = b.autoIncrement
  distKey : a.distKey = b.distKey
  sortKey : a.sortKey = b.sortKey
  characterSet : Option.Rel SameString a.characterSet b.characterSet
  encoding : Option.Rel SameString a.encoding b.encoding
  defaultValue : Option.Rel SameString a.defaultValue b.defaultValue
  comment : Option.Rel SameString a.comment b.comment
  dialect : a.dialect = b.dialect

/-- The same keys in the same order, each with columns that differ in the case of letters. -/
def ColumnMap.SameCase (a b : ColumnMap) : Prop :=
  List.Forall₂ (fun x y => x.1 = y.1 ∧ Column.SameCase x.2 y.2) a.entries b.entries

structure Table.SameCase (a b : Table) : Prop where
  schema : Option.Rel SameString a.schema b.schema
  name : SameString a.name b.name
  temporary : a.temporary = b.temporary
  columns : a.columns.SameCase b.columns
  constraints : List.Forall₂ Constraint.SameCase a.constraints b.constraints
  dialect : a.dialect = b.dialect

inductive ParseError.Detail.SameCase : Detail → Detail → Prop
  | missing (wanted : List Expectation) :
      Option.Rel SameString found found' → SameCase (.missing wanted found) (.missing wanted found')
  | secondStatement : SameCase .secondStatement .secondStatement

structure ParseError.SameCase (e e' : ParseError) : Prop where
  detail : e.detail.SameCase e'.detail
  position : e.position = e'.position
  dialect : e.dialect = e'.dialect
  kind : e.kind = e'.kind

inductive Error.SameCase : Error → Error → Prop
  | missingInput : SameCase .missingInput .missingInput
  | parse : e.SameCase e' → SameCase (.parse e) (.parse e')
  | unknownColumn (kind : ConstraintKind) :
      SameString name name' → SameCase (.unknownColumn name kind) (.unknownColumn name' kind)

/-- Both succeed or both fail, with results that correspond. -/
inductive SameOutcome (E : ε → ε → Prop) (A : α → α → Prop) : Except ε α → Except ε α → Prop
  | ok : A a b → SameOutcome E A (.ok a) (.ok b)
  | error : E e e' → SameOutcome E A (.error e) (.error e')

theorem SameOutcome.bind {x y : Except ε α} {f g : α → Except ε β} (h : SameOutcome E A x y)
    (hf : ∀ ⦃a b⦄, A a b → SameOutcome E B (f a) (g b)) : SameOutcome E B (x >>= f) (y >>= g) := by
  cases h with
  | ok h => exact hf h
  | error h => exact .error h

theorem SameOutcome.imp_error {x y : Except ε α} (h : SameOutcome E A x y)
    (hE : ∀ ⦃e e'⦄, E e e' → E' e e') : SameOutcome E' A x y := by
  cases h with
  | ok h => exact .ok h
  | error h => exact .error (hE h)

theorem sameOutcome_foldlM {f : β → α → Except ε β} {l m : List α} (hl : List.Forall₂ A l m)
    (hf : ∀ ⦃x y a b⦄, B x y → A a b → SameOutcome E B (f x a) (f y b)) (hxy : B x y) :
    SameOutcome E B (l.foldlM f x) (m.foldlM f y) := by
  induction hl generalizing x y with
  | nil => exact .ok hxy
  | cons hab _ ih =>
    rw [List.foldlM_cons, List.foldlM_cons]
    exact (hf hxy hab).bind fun _ _ h => ih h

-- ---------------------------------------------------------------------------
-- Positions and errors of reading
-- ---------------------------------------------------------------------------

theorem count_eq {x : Char} (hx : x.isAlpha = false) (h : SameText s t) :
    s.count x = t.count x := by
  induction h with
  | nil => rfl
  | cons hc _ ih =>
    have hb : (_ == x) = (_ == x) := Bool.eq_iff_iff.mpr (by simpa using hc.eq_iff hx)
    rw [List.count_cons, List.count_cons, ih, hb]

theorem Position.after_eq (h : SameText s t) : after s = after t := by
  have hline : (s.reverse.takeWhile (· != '\n')).length =
      (t.reverse.takeWhile (· != '\n')).length :=
    (SameText.takeWhile (List.forall₂_reverse_iff.mpr h) fun c d hcd =>
      congrArg (!·) (Bool.eq_iff_iff.mpr (by simpa using hcd.eq_iff (x := '\n') rfl))).length_eq
  rw [after, after, count_eq rfl h, hline]

namespace ParseError

theorem placeOf_eq (h : SameText s t) (hr : SameText rest rest') :
    placeOf s rest = placeOf t rest' := by
  rw [placeOf, placeOf, h.length_eq, hr.length_eq]
  exact Position.after_eq (List.forall₂_take _ h)

variable {ms ns : List Miss}

theorem furthest_sameText (h : SameText s t)
    (hm : List.Forall₂ (fun m n => SameText m.rest n.rest ∧ m.expected = n.expected) ms ns) :
    SameText (furthest s ms) (furthest t ns) := by
  refine List.rel_foldl (fun a b hab m n hmn => ?_) h hm
  rw [hab.length_eq, hmn.1.length_eq]
  split
  · exact hmn.1
  · exact hab

theorem wantedAt_eq (hr : SameText rest rest')
    (hm : List.Forall₂ (fun m n => SameText m.rest n.rest ∧ m.expected = n.expected) ms ns) :
    wantedAt rest ms = wantedAt rest' ns := by
  have hf : (ms.filter fun m => m.rest.length = rest.length).map (·.expected) =
      (ns.filter fun n => n.rest.length = rest'.length).map (·.expected) := by
    induction hm with
    | nil => rfl
    | cons hmn _ ih =>
      simp only [List.filter_cons, hmn.1.length_eq, hr.length_eq] at ih ⊢
      split
      · rw [List.map_cons, List.map_cons, hmn.2, ih]
      · exact ih
  rw [wantedAt, wantedAt, hf]

theorem wordsAfter_sameText (hw : SameText word word') (h : SameText s t) :
    List.Forall₂ SameText (Text.wordsAfter word s) (Text.wordsAfter word' t) := by
  have hempty {w w' : List Char} (hw : SameText w w') : w.isEmpty = w'.isEmpty := by
    cases hw <;> rfl
  have hreverse {w w' : List Char} (hw : SameText w w') : SameText w.reverse w'.reverse :=
    List.forall₂_reverse_iff.mpr hw
  induction h generalizing word word' with
  | nil =>
    rw [Text.wordsAfter, Text.wordsAfter, hempty hw]
    split
    · exact .nil
    · exact .cons (hreverse hw) .nil
  | cons hc hs ih =>
    rw [Text.wordsAfter, Text.wordsAfter, hempty hw, hc.isBlank_eq]
    split
    · split
      · exact ih .nil
      · exact .cons (hreverse hw) (ih .nil)
    · exact ih (.cons hc hw)

theorem ofMisses_sameCase (h : SameText s t)
    (hm : List.Forall₂ (fun m n => SameText m.rest n.rest ∧ m.expected = n.expected) ms ns) :
    SameCase (ofMisses s ms) (ofMisses t ns) := by
  have hrest := furthest_sameText h hm
  have hwanted := wantedAt_eq hrest hm
  have hfound : Option.Rel SameString
      ((Text.words (furthest s ms)).head?.map fun word => String.ofList (word.take quotedLength))
      ((Text.words (furthest t ns)).head?.map fun word =>
        String.ofList (word.take quotedLength)) := by
    have hwords := wordsAfter_sameText .nil hrest
    rw [Text.words, Text.words]
    generalize Text.wordsAfter [] (furthest s ms) = l at hwords
    generalize Text.wordsAfter [] (furthest t ns) = m at hwords
    cases hwords with
    | nil => exact .none
    | cons hword _ => exact .some (SameString.ofList (List.forall₂_take _ hword))
  unfold ofMisses
  dsimp only
  rw [hwanted]
  generalize (Text.words (furthest s ms)).head?.map _ = found at hfound
  generalize (Text.words (furthest t ns)).head?.map _ = found' at hfound
  refine ⟨.missing _ hfound, congrArg some (placeOf_eq h hrest), rfl, ?_⟩
  cases hfound <;> rfl

theorem ofSecondStatement_sameCase (h : SameText s t) (hr : SameText rest rest') :
    SameCase (ofSecondStatement s rest) (ofSecondStatement t rest') :=
  ⟨.secondStatement, congrArg some (placeOf_eq h hr), rfl, rfl⟩

theorem Detail.text_sameString (h : SameCase d d') : SameString d.text d'.text := by
  cases h with
  | missing wanted hfound =>
    cases hfound with
    | none => exact SameString.refl _
    | some hfound => exact ((SameString.refl _).append hfound).append (SameString.refl _)
  | secondStatement => exact SameString.refl _

theorem message_sameString {e e' : ParseError} (h : e.SameCase e') :
    SameString e.message e'.message := by
  unfold message
  rw [h.position, h.dialect]
  exact (SameString.refl _).append (Detail.text_sameString h.detail)

end ParseError

theorem Error.message_sameString {e e' : Error} (h : e.SameCase e') :
    SameString e.message e'.message := by
  cases h with
  | missingInput => exact SameString.refl _
  | parse h => exact ParseError.message_sameString h
  | unknownColumn kind h => exact ((SameString.refl _).append h).append (SameString.refl _)

-- ---------------------------------------------------------------------------
-- Statements
-- ---------------------------------------------------------------------------

namespace Statement

open Scan

theorem begins_eq (h : SameText s t) : begins s = begins t := by
  have hr := (alike_head h).result
  unfold begins
  generalize (head.run s).result = x at hr
  generalize (head.run t).result = y at hr
  cases hr <;> rfl

theorem pastOptions_sameText (h : SameText s t) :
    SameText (pastOptions s).2 (pastOptions t).2 := by
  induction hn : s.length using Nat.strongRecOn generalizing s t with
  | ind n ih =>
    have hskip := sameText_skipTrivia h
    rcases hs : skipTrivia s with _ | ⟨c, rest⟩ <;> rcases ht : skipTrivia t with _ | ⟨d, rest'⟩ <;>
      rw [hs, ht] at hskip
    · rw [pastOptions_of_nil hs, pastOptions_of_nil ht]; exact .nil
    · cases hskip
    · cases hskip
    · rw [pastOptions_of_cons hs, pastOptions_of_cons ht, begins_eq h]
      obtain ⟨hc, hr⟩ := List.forall₂_cons.mp hskip
      simp only [hc.eq_iff (x := ';') rfl]
      split
      · exact hr
      split
      · exact hskip
      · exact ih _ (hn ▸ length_pastToken hs) (sameText_pastToken h) rfl

theorem next?_sameText (h : SameText s t) : Option.Rel SameText (next? s) (next? t) := by
  induction hn : s.length using Nat.strongRecOn generalizing s t with
  | ind n ih =>
    have hskip := sameText_skipTrivia h
    rcases hs : skipTrivia s with _ | ⟨c, rest⟩ <;> rcases ht : skipTrivia t with _ | ⟨d, rest'⟩ <;>
      rw [hs, ht] at hskip
    · rw [next?_of_nil hs, next?_of_nil ht]; exact .none
    · cases hskip
    · cases hskip
    · rw [next?_of_cons hs, next?_of_cons ht, begins_eq h]
      split
      · exact .some hskip
      · exact ih _ (hn ▸ length_pastToken hs) (sameText_pastToken h) rfl

theorem readChars_sameCase (h : SameText s t) :
    SameOutcome ParseError.SameCase SameCase (readChars s) (readChars t) := by
  obtain ⟨hr, hm⟩ := alike_rule h
  unfold readChars
  rcases hx : rule.run s with ⟨_ | ⟨a, rest⟩, ms⟩ <;>
    rcases hy : rule.run t with ⟨_ | ⟨b, rest'⟩, ns⟩ <;>
    rw [hx, hy] at hr hm <;> cases hr
  · exact .error (ParseError.ofMisses_sameCase h hm)
  next hab =>
    have hnext := next?_sameText (pastOptions_sameText hab.2)
    dsimp only
    generalize next? (pastOptions rest).2 = x at hnext
    generalize next? (pastOptions rest').2 = y at hnext
    cases hnext with
    | none => exact .ok hab.1
    | some hsecond => exact .error (ParseError.ofSecondStatement_sameCase h hsecond)

end Statement

-- ---------------------------------------------------------------------------
-- Columns
-- ---------------------------------------------------------------------------

namespace Column

theorem typeName_eq (h : List.Forall₂ SameString a b) : typeName a = typeName b := by
  have hm : a.map Unicode.upperCase = b.map Unicode.upperCase :=
    List.forall₂_eq_eq_eq ▸ List.rel_map (fun _ _ hs => hs.upperCase_eq) h
  rw [typeName, typeName, hm]

theorem ofDefinition_sameCase (dialect : Option Dialect) (h : ColumnDefinition.SameCase a b) :
    SameCase (ofDefinition a dialect) (ofDefinition b dialect) := by
  obtain ⟨hname, htype, hattributes⟩ := h
  constructor
  case name => exact hname
  case dataType => exact typeName_eq htype.words
  case length => exact htype.length
  case scale => simp only [ofDefinition, htype.length, htype.scale]
  case dimensions => exact htype.dimensions
  case notNull => simp only [ofDefinition, hattributes.key, hattributes.nullability]
  case primaryKey => simp only [ofDefinition, hattributes.key]
  case unique => simp only [ofDefinition, hattributes.key]
  case unsigned => exact htype.unsigned
  case zerofill => exact htype.zerofill
  case autoIncrement => exact hattributes.autoIncrement
  case distKey => exact hattributes.distKey
  case sortKey => exact hattributes.sortKey
  case characterSet => exact hattributes.characterSet
  case encoding => exact hattributes.encoding
  case defaultValue => exact hattributes.defaultValue
  case comment => exact hattributes.comment
  case dialect => rfl

theorem mark_sameCase (kind : ConstraintKind) (h : SameCase a b) :
    SameCase (kind.mark a) (kind.mark b) := by
  cases kind with
  | primaryKey =>
    exact { h with primaryKey := rfl, notNull := congrArg (· || true) h.notNull }
  | unique => exact { h with unique := rfl }
  | notNull => exact { h with notNull := rfl, primaryKey := congrArg (· && true) h.primaryKey }
  | foreignKey => exact h

end Column

namespace ColumnMap

variable {a b : ColumnMap}

theorem add_sameCase (h : SameCase a b) (hc : Column.SameCase c d) :
    SameCase (a.add c) (b.add d) := by
  have hput {l m : List (String × Column)}
      (h : List.Forall₂ (fun x y => x.1 = y.1 ∧ Column.SameCase x.2 y.2) l m) :
      List.Forall₂ (fun x y => x.1 = y.1 ∧ Column.SameCase x.2 y.2)
        (put (keyOf c.name) c l) (put (keyOf c.name) d m) := by
    induction h with
    | nil => exact .cons ⟨rfl, hc⟩ .nil
    | cons hxy h ih =>
      rw [put, put, hxy.1]
      split
      · exact .cons ⟨rfl, hc⟩ h
      · exact .cons hxy ih
  have hkey : keyOf c.name = keyOf d.name := hc.name.lowerCase_eq
  show List.Forall₂ _ (put (keyOf c.name) c a.entries) (put (keyOf d.name) d b.entries)
  rw [← hkey]
  exact hput h

theorem ofList_sameCase (h : List.Forall₂ Column.SameCase l m) :
    SameCase (ofList l) (ofList m) := by
  have hempty : SameCase {} {} := List.Forall₂.nil
  exact List.rel_foldl (P := SameCase) (R := Column.SameCase)
    (fun _ _ hab _ _ hcd => add_sameCase hab hcd) hempty h

theorem contains_eq (h : SameCase a b) (hn : SameString name name') :
    a.contains name = b.contains name' := by
  have hkey : keyOf name = keyOf name' := hn.lowerCase_eq
  obtain ⟨entries⟩ := a
  obtain ⟨entries'⟩ := b
  rw [contains, contains, get?, get?, hkey]
  unfold SameCase at h
  dsimp only at h ⊢
  induction h with
  | nil => rfl
  | cons hxy _ ih =>
    rw [List.lookup_cons, List.lookup_cons, hxy.1]
    split
    · rfl
    · exact ih

theorem modify_sameCase (h : SameCase a b) (hn : SameString name name') {f g : Column → Column}
    (hf : ∀ ⦃c d⦄, Column.SameCase c d → Column.SameCase (f c) (g d)) :
    SameCase (a.modify name f) (b.modify name' g) := by
  have hkey : keyOf name = keyOf name' := hn.lowerCase_eq
  obtain ⟨entries⟩ := a
  obtain ⟨entries'⟩ := b
  unfold SameCase modify at *
  dsimp only at h ⊢
  rw [hkey]
  induction h with
  | nil => exact .nil
  | cons hxy h ih =>
    rw [modifyKey, modifyKey, hxy.1]
    split
    · exact .cons ⟨rfl, hf hxy.2⟩ h
    · exact .cons hxy ih

theorem resolve_sameCase (h : SameCase a b) (hcs : List.Forall₂ Constraint.SameCase cs ds) :
    SameOutcome Error.SameCase SameCase (a.resolve cs) (b.resolve ds) := by
  refine sameOutcome_foldlM hcs (fun a b c d hab hcd => ?_) h
  rw [constrain, constrain, hcd.kind]
  refine sameOutcome_foldlM hcd.columns (fun a b name name' hab hname => ?_) hab
  rw [markColumn, markColumn, contains_eq hab hname]
  split
  · exact .ok (modify_sameCase hab hname fun _ _ => Column.mark_sameCase d.kind)
  · exact .error (.unknownColumn d.kind hname)

end ColumnMap

-- ---------------------------------------------------------------------------
-- Tables
-- ---------------------------------------------------------------------------

namespace Table

theorem ofStatement_sameCase (dialect : Option Dialect) (h : Statement.SameCase a b) :
    SameOutcome Error.SameCase SameCase (ofStatement a dialect) (ofStatement b dialect) := by
  have hcolumns : List.Forall₂ ColumnDefinition.SameCase (a.items.filterMap (·.column?))
      (b.items.filterMap (·.column?)) := by
    refine List.rel_filterMap (fun x y hxy => ?_) h.items
    cases hxy with
    | column h => exact .some h
    | constraint _ => exact .none
  have hconstraints : List.Forall₂ Constraint.SameCase (a.items.filterMap (·.constraint?))
      (b.items.filterMap (·.constraint?)) := by
    refine List.rel_filterMap (fun x y hxy => ?_) h.items
    cases hxy with
    | column _ => exact .none
    | constraint h => exact .some h
  have hdeclared := ColumnMap.ofList_sameCase
    (List.rel_map (fun _ _ hd => Column.ofDefinition_sameCase dialect hd) hcolumns)
  refine (ColumnMap.resolve_sameCase hdeclared hconstraints).bind fun x y hxy => ?_
  exact .ok ⟨h.name.schema, h.name.name, h.temporary, hxy, hconstraints, rfl⟩

theorem isBlankText_eq (h : SameText s t) : Text.isBlankText s = Text.isBlankText t := by
  induction h with
  | nil => rfl
  | cons hc _ ih =>
    unfold Text.isBlankText at ih ⊢
    rw [List.all_cons, List.all_cons, hc.isBlank_eq, ih]

/-- Texts that differ in the case of letters declare tables that differ in the case of letters, or
fail alike with messages that do. -/
theorem parse_sameCase (s t : String) (dialect : Option Dialect) (h : SameString s t) :
    SameOutcome (fun e e' => e.SameCase e' ∧ SameString e.message e'.message) SameCase
      (parse s dialect) (parse t dialect) := by
  have hparse : SameOutcome Error.SameCase SameCase (parse s dialect) (parse t dialect) := by
    unfold parse
    rw [isBlankText_eq h]
    split
    · exact .error .missingInput
    · have hread := Statement.readChars_sameCase h
      unfold Statement.read
      generalize Statement.readChars s.toList = x at hread
      generalize Statement.readChars t.toList = y at hread
      cases hread with
      | ok h => exact ofStatement_sameCase dialect h
      | error h => exact .error (.parse { h with dialect := rfl })
  exact hparse.imp_error fun _ _ he => ⟨he, Error.message_sameString he⟩

theorem parse_sameCase_of_capitals :
    SameString "CREATE TABLE T (`aΣ` int COMMENT 'X')" "create table t (`AΣ` INT comment 'x')" ∧
      SameOutcome (fun e e' => e.SameCase e' ∧ SameString e.message e'.message) SameCase
        (parse "CREATE TABLE T (`aΣ` int COMMENT 'X')" none)
        (parse "create table t (`AΣ` INT comment 'x')" none) :=
  ⟨by decide, parse_sameCase _ _ none (by decide)⟩

end Table

end TableSchema
