import Mathlib.Data.List.Induction
import Mathlib.Data.List.Nodup
import TableSchema.Proofs.Attributes.Unclaimed
import TableSchema.Table

/-!
# Attributes in any order

Clauses of different kinds are read as what they say, in whatever order they stand:
`ColumnAttributes.read_of_clauses`. Text between them changes nothing as long as no clause begins in
it whose kind has not occurred: `ColumnAttributes.read_of_fillers`. Where one does, it is read as a
clause of the column, and the clause that says otherwise further on is skipped:
`ColumnAttributes.read_of_setNull`.
-/

namespace TableSchema

open Rule Scan Attribute

namespace ColumnAttributes

-- ---------------------------------------------------------------------------
-- Records of clauses
-- ---------------------------------------------------------------------------

/-- The clause of a kind. -/
def valueOf (values : List Attribute) (kind : Attribute.Kind) : Option Attribute :=
  values.find? fun a => a.kind = kind

/-- The attributes that hold the value of each clause. An empty comment is no comment. -/
def ofValues (values : List Attribute) : ColumnAttributes where
  nullability := match valueOf values .nullability with
    | some (.nullability value) => some value
    | _ => none
  autoIncrement := (valueOf values .autoIncrement).isSome
  key := match valueOf values .key with
    | some (.key marker) => some marker
    | _ => none
  defaultValue := match valueOf values .defaultValue with
    | some (.defaultValue text) => some text
    | _ => none
  comment := match valueOf values .comment with
    | some (.comment text) => if text = "" then none else some text
    | _ => none
  encoding := match valueOf values .encoding with
    | some (.encoding name) => some name
    | _ => none
  distKey := (valueOf values .distKey).isSome
  sortKey := (valueOf values .sortKey).isSome
  characterSet := match valueOf values .characterSet with
    | some (.characterSet name) => some name
    | _ => none

theorem valueOf_concat {values : List Attribute} {a : Attribute}
    (h : a.kind ∉ values.map Attribute.kind) (kind : Attribute.Kind) :
    valueOf (values ++ [a]) kind = if a.kind = kind then some a else valueOf values kind := by
  rw [valueOf, List.find?_append, ← valueOf]
  split
  next hk =>
    have hnone : valueOf values kind = none := by
      rw [valueOf, List.find?_eq_none]
      intro b hb he
      exact h (hk ▸ of_decide_eq_true he ▸ List.mem_map_of_mem hb)
    simp [hnone, hk]
  next hk => simp [hk]

/-- A clause of a kind that has not occurred is recorded. -/
theorem ofValues_concat {values : List Attribute} {a : Attribute}
    (h : a.kind ∉ values.map Attribute.kind) :
    ofValues (values ++ [a]) = (ofValues values).record a := by
  cases a <;> simp [ofValues, record, valueOf_concat h, Attribute.kind]

theorem foldl_record {values : List Attribute} (h : (values.map Attribute.kind).Nodup) :
    values.foldl record {} = ofValues values := by
  induction values using List.reverseRecOn with
  | nil => rfl
  | append_singleton values a ih =>
    rw [List.map_append, List.nodup_append] at h
    rw [List.foldl_append, ih h.1, ofValues_concat]
    · rfl
    · exact fun hm => h.2.2 _ hm _ (List.mem_singleton_self _) rfl

theorem record_comm (attributes : ColumnAttributes) {a b : Attribute} (h : a.kind ≠ b.kind) :
    (attributes.record a).record b = (attributes.record b).record a := by
  cases a <;> cases b <;> first | rfl | exact absurd rfl h

theorem foldl_record_perm {values others : List Attribute} (h : (values.map Attribute.kind).Nodup)
    (hp : others.Perm values) (attributes : ColumnAttributes) :
    others.foldl record attributes = values.foldl record attributes := by
  refine (hp.symm.foldl_eq' (fun a ha b hb attributes => ?_) attributes).symm
  by_cases hab : a = b
  · rw [hab]
  · exact record_comm attributes fun hk => hab (List.inj_on_of_nodup_map h ha hb hk)

theorem ofValues_perm {values others : List Attribute} (h : (values.map Attribute.kind).Nodup)
    (hp : others.Perm values) : ofValues others = ofValues values := by
  have ho : (others.map Attribute.kind).Nodup := (hp.map Attribute.kind).nodup_iff.mpr h
  rw [← foldl_record h, ← foldl_record ho, foldl_record_perm h hp]

theorem valueOf_of_mem {values : List Attribute} (h : (values.map Attribute.kind).Nodup)
    (ha : a ∈ values) : valueOf values a.kind = some a := by
  have hsome : (valueOf values a.kind).isSome = true :=
    List.find?_isSome.mpr ⟨a, ha, decide_eq_true rfl⟩
  obtain ⟨b, hb⟩ := Option.isSome_iff_exists.mp hsome
  have hkind : b.kind = a.kind := of_decide_eq_true (List.find?_some hb :)
  rw [hb, List.inj_on_of_nodup_map h (List.mem_of_find?_eq_some hb) ha hkind]

end ColumnAttributes

-- ---------------------------------------------------------------------------
-- Pieces
-- ---------------------------------------------------------------------------

namespace Attribute

theorem Clause.nodup_values {clauses : List Clause} (h : (clauses.map kind).Nodup) :
    ((clauses.map value).map Attribute.kind).Nodup := by
  rw [List.map_map]
  exact h

/-- A clause, or text between clauses. -/
inductive Piece where
  | clause (c : Clause)
  | filler (f : Filler)

namespace Piece

def tokens : Piece → List Token
  | clause c => c.tokens
  | filler f => f.tokens

def clause? : Piece → Option Clause
  | clause c => some c
  | filler _ => none

/-- Each clause is of a kind that is still pending where it stands, and no clause of a pending kind
begins in text between clauses. -/
def Admissible : List Kind → List Piece → Prop
  | _, [] => True
  | pending, clause c :: pieces => c.kind ∈ pending ∧ Admissible (pending.erase c.kind) pieces
  | pending, filler f :: pieces =>
    f.Admissible pending (pieces.flatMap tokens) ∧ Admissible pending pieces

theorem Admissible.nodup_kinds {pieces : List Piece} (h : Admissible pending pieces)
    (hpending : pending.Nodup) :
    ((pieces.filterMap clause?).map Clause.kind).Nodup ∧
      ∀ kind ∈ (pieces.filterMap clause?).map Clause.kind, kind ∈ pending := by
  induction pieces generalizing pending with
  | nil => exact ⟨.nil, nofun⟩
  | cons piece pieces ih =>
    cases piece with
    | clause c =>
      obtain ⟨hnodup, hmem⟩ := ih h.2 (hpending.erase _)
      refine ⟨List.nodup_cons.mpr ⟨fun hc => ?_, hnodup⟩, List.forall_mem_cons.mpr ⟨h.1, ?_⟩⟩
      · exact (hpending.mem_erase_iff.mp (hmem _ hc)).1 rfl
      · exact fun kind hk => List.mem_of_mem_erase (hmem kind hk)
    | filler f => exact ih h.2 hpending

theorem admissible_clauses {clauses : List Clause} (h : (clauses.map Clause.kind).Nodup)
    (hpending : ∀ c ∈ clauses, c.kind ∈ pending) : Admissible pending (clauses.map clause) := by
  induction clauses generalizing pending with
  | nil => trivial
  | cons c clauses ih =>
    rw [List.map_cons, List.nodup_cons] at h
    rw [List.forall_mem_cons] at hpending
    refine ⟨hpending.1, ih h.2 fun d hd => ?_⟩
    have hne : d.kind ≠ c.kind := fun he => h.1 (he ▸ List.mem_map_of_mem hd)
    exact (List.mem_erase_of_ne hne).mpr (hpending.2 d hd)

/-- Each piece begins with a word that does not go on with a clause before it. -/
theorem exists_opening (p : Piece) : ∃ w ts, p.tokens = .lexeme (.keyword w) :: ts ∧ w ≠ "KEY" := by
  have hclause (c : Clause) : c.opening ≠ "KEY" := by
    intro he
    have hw := c.opening_mem_words
    rw [he] at hw
    revert hw
    cases c.kind <;> decide
  cases p with
  | clause c => exact ⟨c.opening, c.more, rfl, hclause c⟩
  | filler f =>
    refine ⟨f.opening, f.more, rfl, ?_⟩
    cases f with
    | references => exact (by decide : "REFERENCES" ≠ "KEY")
    | again c => exact hclause c

end Piece

theorem follows_of_atItemEnd (h : atItemEnd s = true) : Follows s where
  colon := by
    intro hc
    have hhead := head?_of_atItemEnd h
    rw [hc] at hhead
    revert hhead
    decide
  key := by
    rw [nextCapitals_of_atItemEnd h]
    decide

theorem Written.follows {w : String} {ts : List Token}
    (h : Written rest (.lexeme (.keyword w) :: ts) s) (hw : w ≠ "KEY") : Follows s where
  colon := by
    obtain ⟨u, s', hs, hu, -, -⟩ := h.skipTrivia_eq
    obtain ⟨v, rfl, -⟩ := hu.eq_word rfl
    obtain ⟨c, u, hv, hc⟩ := v.exists_cons
    rw [hs, hv]
    exact fun he => ne_of_isWordChar hc (by decide +kernel) (Option.some.inj he)
  key := by
    rw [h.nextCapitals_eq]
    exact fun he => hw (String.toList_inj.mp he)

theorem follows_of_pieces {pieces : List Piece} (h : Written rest (pieces.flatMap Piece.tokens) s)
    (hend : atItemEnd rest = true) : Follows s := by
  cases pieces with
  | nil =>
    cases h
    exact follows_of_atItemEnd hend
  | cons piece pieces =>
    obtain ⟨w, ts, htokens, hw⟩ := piece.exists_opening
    rw [List.flatMap_cons, htokens] at h
    exact h.follows hw

end Attribute

namespace ColumnAttributes

theorem read_firstOf_rules {kinds : List Kind} {kind : Kind} (hk : kind ∈ kinds)
    (h : (Attribute.rule kind).read s = some (a, rest))
    (hother : ∀ other, other ≠ kind → (Attribute.rule other).read s = none) :
    (firstOf (kinds.map Attribute.rule)).read s = some (a, rest) := by
  induction kinds with
  | nil => cases hk
  | cons first kinds ih =>
    rw [List.map_cons, read_firstOf_cons]
    by_cases hf : first = kind
    · rw [hf, h]
      rfl
    · rw [hother first hf, Option.none_or]
      exact ih ((List.mem_cons.mp hk).resolve_left (Ne.symm hf))

theorem read_of_clause (progress : Progress) {c : Clause} (h : Written rest c.tokens s)
    (hf : Follows rest) (hk : c.kind ∈ progress.pending) :
    (clauseOrUnclaimed progress).read s =
      some (⟨progress.attributes.record c.value, progress.pending.erase c.kind⟩, rest) := by
  rw [clauseOrUnclaimed, read_orElse, clause, read_map,
    read_firstOf_rules hk (c.read_rule h hf) fun _ ho => c.read_other h ho]
  rfl

theorem read_of_end {progress : Progress} (h : atItemEnd s = true) :
    (clauseOrUnclaimed progress).read s = none := by
  have hclause : (clause progress).read s = none := by
    refine read_clause_eq_none fun kind _ => read_eq_none fun w hw => ?_
    rw [← nextCapitals, nextCapitals_of_atItemEnd h]
    exact kind.ne_nil_of_mem_words hw
  rw [clauseOrUnclaimed, read_orElse, hclause, read_seqRight, read_unclaimed, h]
  rfl

/-- Of the pieces up to the end of the item the clauses are recorded. -/
theorem read_iterate_of_pieces {pieces : List Piece} (attributes : ColumnAttributes)
    (hp : Piece.Admissible pending pieces) (h : Written rest (pieces.flatMap Piece.tokens) s)
    (hend : atItemEnd rest = true) :
    ∃ left, (iterate clauseOrUnclaimed consumes_clauseOrUnclaimed ⟨attributes, pending⟩).read s =
      some (⟨((pieces.filterMap Piece.clause?).map Clause.value).foldl record attributes, left⟩,
        rest) := by
  induction pieces generalizing attributes pending s with
  | nil =>
    cases h
    rw [read_iterate, read_of_end hend]
    exact ⟨pending, rfl⟩
  | cons piece pieces ih =>
    cases piece with
    | clause c =>
      obtain ⟨middle, hclause, hrest⟩ := Written.append_iff.mp h
      have hstep := read_of_clause ⟨attributes, pending⟩ hclause (follows_of_pieces hrest hend) hp.1
      rw [read_iterate, hstep]
      exact ih _ hp.2 hrest
    | filler f =>
      obtain ⟨middle, hrest, hskipped⟩ :=
        read_iterate_of_unclaimed ⟨attributes, pending⟩ h hend hp.1.tokens
      rw [hskipped]
      exact ih _ hp.2 hrest

theorem read_of_admissible {pieces : List Piece} (hp : Piece.Admissible Kind.all pieces)
    (h : Written rest (pieces.flatMap Piece.tokens) s) (hend : atItemEnd rest = true) :
    rule.read s = some (ofValues ((pieces.filterMap Piece.clause?).map Clause.value), rest) := by
  obtain ⟨left, hread⟩ := read_iterate_of_pieces {} hp h hend
  have hkinds := (hp.nodup_kinds (by decide)).1
  rw [← foldl_record (Clause.nodup_values hkinds), rule, read_map]
  show ((iterate clauseOrUnclaimed consumes_clauseOrUnclaimed ⟨{}, Kind.all⟩).read s).map _ = _
  rw [hread]
  rfl

end ColumnAttributes

-- ---------------------------------------------------------------------------
-- The end of an item
-- ---------------------------------------------------------------------------

/-- An item ends here: at a comma, a closing parenthesis or the end of the text. -/
def EndsItem (ending : List Char) : Prop := ending.head? ∈ [none, some ',', some ')']

instance (ending : List Char) : Decidable (EndsItem ending) := by
  unfold EndsItem
  infer_instance

theorem EndsItem.skipTrivia_eq (h : EndsItem ending) : skipTrivia ending = ending := by
  cases ending with
  | nil => exact skipTrivia_nil
  | cons c ending =>
    have hc : c = ',' ∨ c = ')' := by simpa [EndsItem] using h
    rcases hc with rfl | rfl <;> exact skipTrivia_of_beginsLexeme (by decide) _

theorem EndsItem.skipTrivia_append (h : EndsItem ending) (hgap : Trivia gap) :
    skipTrivia (gap ++ ending) = ending := by
  rw [skipTrivia_append_of_trivia hgap, h.skipTrivia_eq]

theorem EndsItem.atItemEnd (h : EndsItem ending) (hgap : Trivia gap) :
    atItemEnd (gap ++ ending) = true := by
  rw [TableSchema.atItemEnd, h.skipTrivia_append hgap]
  cases ending with
  | nil => rfl
  | cons c ending => simpa [EndsItem] using h

namespace ColumnAttributes

/-- Clauses of different kinds are read as what they say up to the end of the item, in whatever
order they stand and however they are written. -/
theorem read_of_clauses {clauses permuted : List Clause} {gap ending s : List Char}
    (hkinds : (clauses.map Clause.kind).Nodup) (hperm : permuted.Perm clauses)
    (h : Written (gap ++ ending) (permuted.flatMap Clause.tokens) s) (hgap : Trivia gap)
    (hend : EndsItem ending) :
    rule.read s = some (ofValues (clauses.map Clause.value), gap ++ ending) ∧
      skipTrivia (gap ++ ending) = ending := by
  refine ⟨?_, hend.skipTrivia_append hgap⟩
  have hadmissible : Piece.Admissible Kind.all (permuted.map Piece.clause) :=
    Piece.admissible_clauses ((hperm.map Clause.kind).nodup_iff.mpr hkinds)
      fun c _ => c.kind.mem_all
  have hwritten : Written (gap ++ ending) ((permuted.map Piece.clause).flatMap Piece.tokens) s := by
    rw [List.flatMap_map]
    exact h
  have hread := read_of_admissible hadmissible hwritten (hend.atItemEnd hgap)
  have hclauses : (permuted.map Piece.clause).filterMap Piece.clause? = permuted := by
    rw [List.filterMap_map]
    exact List.filterMap_some
  rw [hread, hclauses, ofValues_perm (Clause.nodup_values hkinds) (hperm.map _)]

/-- Two clauses with values and one without. -/
def samples : List Clause :=
  [.notNull,
    .comment (.literal {
      quote := .single
      body := ['i', '\'', '\'', 's']
      closed := .plain (by decide) rfl (.pair (.plain (by decide) rfl .nil)) }),
    .defaultValue (.word ⟨['0'], by decide, List.all_eq_true.mp rfl⟩)]

theorem read_of_clauses_of_comments :
    rule.read "comment 'i''s' DEFAULT/* 1 */0 Not -- x\nnull , b int".toList =
      some ({ nullability := some .notNull, defaultValue := "0", comment := "i''s" },
        " , b int".toList) := by
  have blank : Trivia [' '] := .blank rfl .nil
  have block : Trivia "/* 1 */".toList := @Trivia.block " 1 ".toList [] (by decide) .nil
  have line : Trivia " -- x\n".toList :=
    .blank rfl (@Trivia.line " x".toList [] (by decide) .nil)
  have h : Written " , b int".toList
      ((samples.tail ++ samples.take 1).flatMap Clause.tokens)
      "comment 'i''s' DEFAULT/* 1 */0 Not -- x\nnull , b int".toList :=
    .cons .nil (@Token.spells_keyword _ "comment" rfl (by decide) rfl) (.of_endsBare rfl) <|
    .cons blank (.literal _) (.of_endsBare rfl) <|
    .cons blank (@Token.spells_keyword _ "DEFAULT" rfl (by decide) rfl) (.of_endsBare rfl) <|
    .cons block (.value _) (.of_endsBare rfl) <|
    .cons blank (@Token.spells_keyword _ "Not" rfl (by decide) rfl) (.of_endsBare rfl) <|
    .cons line (@Token.spells_keyword _ "null" rfl (by decide) rfl) (.of_endsBare rfl) .nil
  have hkinds : (samples.map Clause.kind).Nodup := by decide
  have hend : EndsItem ", b int".toList := by decide
  exact (read_of_clauses hkinds List.perm_append_comm h blank hend).1

/-- Text between clauses changes nothing where no clause of a pending kind begins in it: the clauses
are read as without it, and `NOT NULL` is not lost. -/
theorem read_of_fillers {pieces : List Piece} {gap ending s gap' ending' s' : List Char}
    (hpieces : Piece.Admissible Kind.all pieces)
    (h : Written (gap ++ ending) (pieces.flatMap Piece.tokens) s) (hgap : Trivia gap)
    (hend : EndsItem ending)
    (h' : Written (gap' ++ ending') ((pieces.filterMap Piece.clause?).flatMap Clause.tokens) s')
    (hgap' : Trivia gap') (hend' : EndsItem ending') :
    ∃ attributes, rule.read s = some (attributes, gap ++ ending) ∧
      rule.read s' = some (attributes, gap' ++ ending') ∧
      (.clause .notNull ∈ pieces → attributes.nullability = some .notNull) := by
  have hkinds := (hpieces.nodup_kinds (by decide)).1
  have hread := read_of_admissible hpieces h (hend.atItemEnd hgap)
  refine ⟨_, hread, (read_of_clauses hkinds .rfl h' hgap' hend').1, fun hm => ?_⟩
  have hvalue : Attribute.nullability .notNull ∈
      (pieces.filterMap Piece.clause?).map Clause.value :=
    List.mem_map.mpr ⟨.notNull, List.mem_filterMap.mpr ⟨_, hm, rfl⟩, rfl⟩
  have hof : valueOf ((pieces.filterMap Piece.clause?).map Clause.value) .nullability =
      some (.nullability .notNull) :=
    valueOf_of_mem (Clause.nodup_values hkinds) hvalue
  rw [ofValues, hof]

theorem read_of_fillers_of_reference :
    ∃ attributes : ColumnAttributes,
      rule.read "NOT NULL REFERENCES character (id) ON DELETE SET NULL DEFAULT 0 NULL)".toList =
        some (attributes, ")".toList) ∧
      rule.read "NOT NULL DEFAULT 0".toList = some (attributes, []) ∧
      attributes.nullability = some .notNull := by
  let table : Word := ⟨"character".toList, by decide, List.all_eq_true.mp rfl⟩
  let zero : Word := ⟨['0'], by decide, List.all_eq_true.mp rfl⟩
  let pieces : List Piece :=
    [.clause .notNull, .filler (.references ⟨.word table, []⟩ ['i', 'd'] (some .setNull) none),
      .clause (.defaultValue (.word zero)), .filler (.again .null)]
  have blank : Trivia [' '] := .blank rfl .nil
  have hcolumns : Enclosed ['i', 'd'] :=
    .plain rfl (by decide) (by decide) (.plain rfl (by decide) (by decide) .nil)
  have hpieces : Piece.Admissible Kind.all pieces := by
    refine ⟨by decide, ⟨nofun, ?_⟩, by decide, ⟨?_, trivial⟩, trivial⟩
    · exact ⟨⟨trivial, by decide⟩, ⟨trivial, by decide⟩, ⟨trivial, by decide⟩,
        ⟨trivial, by decide⟩, ⟨trivial, by decide⟩, ⟨trivial, by decide⟩, trivial⟩
    · rintro c ⟨⟩
      decide
  have h : Written ([] ++ ")".toList) (pieces.flatMap Piece.tokens)
      "NOT NULL REFERENCES character (id) ON DELETE SET NULL DEFAULT 0 NULL)".toList :=
    .cons .nil (@Token.spells_keyword _ "NOT" rfl (by decide) rfl) (.of_endsBare rfl) <|
    .cons blank (@Token.spells_keyword _ "NULL" rfl (by decide) rfl) (.of_endsBare rfl) <|
    .cons blank (@Token.spells_keyword "REFERENCES" "REFERENCES" rfl (by decide) rfl)
      (.of_endsBare rfl) <|
    .cons blank (.lexeme (.word table)) (.of_endsBare rfl) <|
    .cons blank (.group hcolumns) (.of_endsBare rfl) <|
    .cons blank (@Token.spells_keyword _ "ON" rfl (by decide) rfl) (.of_endsBare rfl) <|
    .cons blank (@Token.spells_keyword _ "DELETE" rfl (by decide) rfl) (.of_endsBare rfl) <|
    .cons blank (@Token.spells_keyword _ "SET" rfl (by decide) rfl) (.of_endsBare rfl) <|
    .cons blank (@Token.spells_keyword _ "NULL" rfl (by decide) rfl) (.of_endsBare rfl) <|
    .cons blank (@Token.spells_keyword "DEFAULT" "DEFAULT" rfl (by decide) rfl)
      (.of_endsBare rfl) <|
    .cons blank (.value zero) (.of_endsBare rfl) <|
    .cons blank (@Token.spells_keyword _ "NULL" rfl (by decide) rfl) (.of_endsBare rfl) .nil
  have h' : Written ([] ++ []) ([.notNull, .defaultValue (.word zero)].flatMap Clause.tokens)
      "NOT NULL DEFAULT 0".toList :=
    .cons .nil (@Token.spells_keyword _ "NOT" rfl (by decide) rfl) (.of_endsBare rfl) <|
    .cons blank (@Token.spells_keyword _ "NULL" rfl (by decide) rfl) (.of_endsBare rfl) <|
    .cons blank (@Token.spells_keyword "DEFAULT" "DEFAULT" rfl (by decide) rfl)
      (.of_endsBare rfl) <|
    .cons blank (.value zero) (.of_endsBare rfl) .nil
  have hend : EndsItem ")".toList := by decide
  obtain ⟨attributes, hread, hread', hnotNull⟩ :=
    read_of_fillers hpieces h .nil hend h' .nil (by decide)
  exact ⟨attributes, hread, hread', hnotNull (List.mem_cons_self ..)⟩

/-- `NULL` in the action of a reference is read as a clause, and `NOT NULL` behind it is not. -/
theorem read_of_setNull :
    rule.read "NOT NULL".toList = some ({ nullability := some .notNull }, []) ∧
      rule.read "REFERENCES p (id) ON DELETE SET NULL NOT NULL".toList =
        some ({ nullability := some .null }, []) ∧
      (Table.parse "CREATE TABLE t (a int NOT NULL)" none).toOption.map
        (fun table => table.columns.toList.map (·.notNull)) = some [true] ∧
      (Table.parse "CREATE TABLE t (a int REFERENCES p (id) ON DELETE SET NULL NOT NULL)"
        none).toOption.map (fun table => table.columns.toList.map (·.notNull)) = some [false] := by
  decide +kernel

end ColumnAttributes

end TableSchema
