import TableSchema.Proofs.Casts.Token
import TableSchema.Proofs.Checked.Rule
import TableSchema.Proofs.Continuation.Statement
import TableSchema.Proofs.Program.Statement

/-!
# Values with casts

A value with casts ends with its last type, at a seam, so no white space and no comment behind it
is part of it. Each part of a type that is tried and left is left in the cut text too, so the value
read on its own is the whole of itself. Where no cast follows the operand the attempt is without
effect.
-/

namespace TableSchema

open Rule Scan

-- ---------------------------------------------------------------------------
-- Types
-- ---------------------------------------------------------------------------

namespace TypeSpec

variable {rest : List Char}

theorem all_isKeyword_of_mem_modifiers {words : List String} (h : words ∈ modifiers) :
    words.all isKeyword = true := by
  have hall : modifiers.all (·.all isKeyword) = true := by decide
  exact List.all_eq_true.mp hall words h

theorem detached_modifier : modifier.Detached rest := by
  refine detached_firstOf fun p hp => ?_
  obtain ⟨words, hw, rfl⟩ := List.mem_map.mp hp
  exact (detached_keywords (all_isKeyword_of_mem_modifiers hw)).bind
    (fun _ => detached_pure words) fun _ => total_pure words

theorem detached_extend (words : List String) : (extend words).Detached rest :=
  detached_iterate (fun _ => detached_modifier.map _) words

/-- A scale, a unit and the closing parenthesis are looked for one after another. What comes behind
the seam leaves nothing of the cut text, where the parenthesis is then missing. -/
theorem detached_lengthGroup : lengthGroup.Detached rest := by
  refine (oneToken_symbol (by decide) rfl).bind fun _ => ?_
  have hlength : (symbol "*" *> pure Length.any <|> Length.value <$> number).OneToken rest :=
    ((oneToken_symbol (by decide) rfl).bind_pure fun _ => Length.any).orElse
      (oneToken_number.bind_pure Length.value)
  refine hlength.bind fun length => ?_
  have hclose (scale : Option Nat) :
      (symbol ")" >>= fun _ => (pure (length, scale) : Rule (Length × Option Nat))).OneToken rest :=
    (oneToken_symbol (by decide) rfl).bind_pure fun _ => (length, scale)
  have hunit : (anyKeyword ["CHAR", "BYTE"]).present.Exhausts rest :=
    (oneToken_anyKeyword (by decide)).present
  have hscale : (ifPresent (symbol ",") (option number) (pure none)).Exhausts rest :=
    (oneToken_symbol (by decide) rfl).ifPresent ⟨oneToken_number.option, total_option number⟩
      ⟨exhausts_pure none, total_pure none⟩
  exact hscale.bind
    (fun scale => hunit.bind (fun _ => (hclose scale).detached) fun _ => (hclose scale).needs)
    fun scale => hunit.needsToken_bind fun _ => (hclose scale).needs

theorem detached_flag (type : TypeSpec) : (flag type).Detached rest := by
  have hword (w : String) (hw : isKeyword w = true) (type : TypeSpec) :
      (keyword w *> pure type).Detached rest :=
    (oneToken_keyword hw).bind fun _ => detached_pure type
  exact (detached_ite _ detached_never (hword _ (by decide) _)).orElse
    (detached_ite _ detached_never (hword _ (by decide) _))

theorem detached_bracket : bracket.Detached rest := by
  have hclose : (symbol "]").OneToken rest := oneToken_symbol (by decide) rfl
  exact (oneToken_symbol (by decide) rfl).bind fun _ =>
    oneToken_number.option.bind (fun _ => hclose.detached) fun _ => hclose.needs

theorem detached_rule : rule.Detached rest := by
  refine oneToken_word.bind fun first =>
    And.left (Detached.bind_of_total ⟨detached_extend _, total_iterate _⟩ fun words => ?_)
  refine Detached.bind_of_total ⟨detached_lengthGroup.option, total_option _⟩ fun group => ?_
  refine Detached.bind_of_total ⟨detached_ite _ (detached_extend _) (detached_pure _),
    total_ite _ (total_iterate _) (total_pure _)⟩ fun words => ?_
  refine Detached.bind_of_total ⟨detached_iterate detached_flag _, total_iterate _⟩ fun type => ?_
  exact Detached.bind_of_total
    ⟨detached_iterate (fun _ => detached_bracket.map _) 0, total_iterate _⟩
    fun dimensions => ⟨detached_pure _, total_pure _⟩

theorem seals_extend (words : List String) : (extend words).Seals := by
  refine seals_iterate (fun _ => .map _ (seals_firstOf fun p hp => ?_)) words
  obtain ⟨words, hw, rfl⟩ := List.mem_map.mp hp
  exact (seals_keywords (all_isKeyword_of_mem_modifiers hw)).bind fun _ => seals_pure words

theorem seals_lengthGroup : lengthGroup.Seals :=
  And.left <| closes_bind_right fun _ => closes_bind_right fun _ => closes_bind_right fun _ =>
    closes_bind_right fun _ =>
      ⟨(seals_symbol (.inl rfl)).bind fun _ => seals_pure _, (consumes_symbol (by decide)).bind⟩

theorem seals_flag (type : TypeSpec) : (flag type).Seals := by
  have hword (w : String) (hw : isKeyword w = true) (type : TypeSpec) :
      (keyword w *> pure type).Seals := (seals_keyword hw).bind fun _ => seals_pure type
  exact (seals_ite _ seals_never (hword _ (by decide) _)).orElse
    (seals_ite _ seals_never (hword _ (by decide) _))

theorem seals_bracket : bracket.Seals :=
  And.left <| closes_bind_right fun _ => closes_bind_right fun _ =>
    ⟨seals_symbol (.inr rfl), consumes_symbol (by decide)⟩

theorem seals_rule : rule.Seals := by
  refine seals_word.bind fun first => ?_
  refine (seals_extend _).bind fun words => ?_
  refine seals_lengthGroup.option.bind fun group => ?_
  refine (seals_ite _ (seals_extend _) (seals_pure _)).bind fun words => ?_
  refine (seals_iterate seals_flag _).bind fun type => ?_
  exact (seals_iterate (fun _ => seals_bracket.map _) 0).bind fun _ => seals_pure _

theorem isSome_read_rule (s : List Char) : (rule.read s).isSome = true ↔ nextWord s ≠ [] := by
  constructor
  · intro h hn
    rw [rule, read_bind, read_word, if_pos hn] at h
    cases h
  · intro hn
    have hword : word.read s = some (String.ofList (nextWord s), afterWord s) := by
      rw [read_word, if_neg hn]
    obtain ⟨_, _, _, _, -, hr, -⟩ := exists_read hword
    rw [hr]
    rfl

end TypeSpec

-- ---------------------------------------------------------------------------
-- Operands and casts
-- ---------------------------------------------------------------------------

namespace Value

variable {s u v rest middle : List Char} {w : String}

/-- An operand that begins with a quote which is not closed runs to the end of the text. -/
theorem read_operand_cons {c : Char} {t : List Char} (hs : skipTrivia s = c :: t) :
    operand.read s =
      if c = '\'' ∨ c = '"' then
        match readLiteral c true t with
        | some (body, after) => some (String.ofList body, after)
        | none => some (String.ofList (c :: t), [])
      else (bare true).read s := by
  have hbare (hq : c = '\'' ∨ c = '"') (hl : readLiteral c true t = none) :
      (bare true).read s = some (String.ofList (c :: t), []) := by
    have hends : endsBare true (c :: t) = false := by rcases hq with rfl | rfl <;> rfl
    have hescapes : escapesIn c = true := by rcases hq with rfl | rfl <;> rfl
    have hpast : pastBare true 0 (c :: t) = [] := by
      rw [pastBare_cons, hends]
      rcases hq with rfl | rfl <;> simp [isQuote, pastLiteral, hescapes, hl, pastBare]
    rw [read_bare, hs, hends, hpast]
    simp
  rw [read_operand, read_literal, read_literal, hs, quoted, quoted]
  by_cases h1 : c = '\''
  · subst h1
    cases hl : readLiteral '\'' true t with
    | none => simp [hl, hbare]
    | some found => simp
  · by_cases h2 : c = '"'
    · subst h2
      cases hl : readLiteral '"' true t with
      | none => simp [hl, hbare]
      | some found => simp
    · simp [h1, h2]

/-- An operand ends where it does without regard to what stands behind the casts. -/
theorem read_operand_cut (hskip : skipTrivia (u ++ rest) = u ++ rest) (hu : skipTrivia u = u)
    (hv : 2 ≤ v.length) (h : operand.read (u ++ rest) = some (w, v ++ rest)) :
    operand.read u = some (w, v) := by
  have hne : v ≠ [] := by
    rintro rfl
    simp at hv
  have hlength := (read_suffix h).length_le
  rw [List.length_append, List.length_append] at hlength
  obtain ⟨c, d, t, rfl⟩ := exists_cons_cons (s := u) (by omega)
  have hwhole : skipTrivia (c :: d :: t ++ rest) = c :: (d :: t ++ rest) := hskip
  rw [read_operand_cons hwhole] at h
  rw [read_operand_cons hu]
  split
  next hq =>
    rw [if_pos hq] at h
    cases hl : readLiteral c true (d :: t ++ rest) with
    | none =>
      simp only [hl, Option.some.injEq, Prod.mk.injEq, List.nil_eq, List.append_eq_nil_iff] at h
      exact absurd h.2.1 hne
    | some found =>
      obtain ⟨body, after⟩ := found
      simp only [hl, Option.some.injEq, Prod.mk.injEq] at h
      obtain ⟨rfl, rfl⟩ := h
      rw [readLiteral_cut hl hne]
  next hq =>
    rw [if_neg hq] at h
    exact read_bare_cut hskip hu hv h

/-- One or more casts. -/
def casts : Rule Unit := do
  cast
  iterate (fun _ => cast) (fun _ => consumes_cast) ()

theorem castExpression_eq : castExpression = operand >>= fun _ => casts := rfl

theorem consumes_casts : casts.Consumes := consumes_cast.bind

theorem detached_cast : cast.Detached rest :=
  (oneToken_symbol (by decide) (by decide +kernel)).bind fun _ => TypeSpec.detached_rule.map _

theorem detached_casts : casts.Detached rest :=
  detached_cast.bind (fun _ => detached_iterate (fun _ => detached_cast) ()) fun _ =>
    total_iterate ()

theorem seals_cast : cast.Seals :=
  seals_bind_right (fun _ => TypeSpec.seals_rule.map _) fun _ => TypeSpec.consumes_rule.map _

/-- Whatever the operand ends with, the last cast ends at a seam. -/
theorem seals_castExpression : castExpression.Seals :=
  seals_bind_right (fun _ => seals_cast.bind fun _ => seals_iterate (fun _ => seals_cast) ())
    fun _ => consumes_casts

theorem isSome_read_cast (s : List Char) :
    (cast.read s).isSome = true ↔
      ∃ behind, skipTrivia s = ':' :: ':' :: behind ∧ nextWord behind ≠ [] := by
  rw [cast, read_seqRight, Option.isSome_bind, read_symbol]
  cases hmark : afterSymbol? "::".toList (skipTrivia s) with
  | none =>
    have hnone := afterSymbol?_eq_none_iff.mp hmark
    refine ⟨nofun, ?_⟩
    rintro ⟨behind, hs, -⟩
    exact absurd ⟨behind, hs.symm⟩ hnone
  | some found =>
    obtain ⟨_, behind⟩ := found
    have hs : skipTrivia s = ':' :: ':' :: behind := afterSymbol?_eq_some_iff.mp hmark
    simp [hs, read_map, TypeSpec.isSome_read_rule]

/-- Casts begin with the symbol of the first one. -/
theorem exists_of_read_casts (h : casts.read s = some ((), rest)) :
    ∃ behind, skipTrivia s = ':' :: ':' :: behind ∧ rest.length ≤ behind.length := by
  obtain ⟨_, middle, hcast, hiterate⟩ := read_bind_eq_some.mp h
  obtain ⟨_, behind, hmark, htype⟩ := read_bind_eq_some.mp hcast
  refine ⟨behind, afterSymbol?_eq_some_iff.mp hmark, ?_⟩
  exact ((read_suffix hiterate).trans (read_suffix htype)).length_le

/-- What is read up to a seam is read of the text that ends there. -/
theorem read_castExpression_cut (hskip : skipTrivia (u ++ rest) = u ++ rest)
    (hu : skipTrivia u = u) (hs : Seam u rest)
    (h : castExpression.read (u ++ rest) = some ((), rest)) :
    ∃ w v, operand.read u = some (w, v) ∧ casts.read v = some ((), []) := by
  obtain ⟨w, middle, ho, hc⟩ := read_bind_eq_some.mp h
  have hlt := consumes_casts _ _ _ hc
  obtain ⟨v, hv, rfl⟩ := (read_append_cases ho).resolve_right (by omega)
  obtain ⟨behind, hmark, hlength⟩ := exists_of_read_casts hc
  -- The symbol of the first cast alone is as long as the end of the operand looks ahead.
  have htwo : 2 ≤ v.length := by
    have := (skipTrivia_suffix (v ++ rest)).length_le
    rw [hmark] at this
    simp only [List.length_cons, List.length_append] at this
    omega
  refine ⟨w, v, read_operand_cut hskip hu htwo ho, ?_⟩
  exact detached_casts.reads (hs.suffix hv) hc

-- ---------------------------------------------------------------------------
-- Values
-- ---------------------------------------------------------------------------

/-- A cast follows the operand that comes next. -/
def CastFollows (s : List Char) : Prop :=
  ∃ w middle behind, operand.read s = some (w, middle) ∧
    skipTrivia middle = ':' :: ':' :: behind ∧ nextWord behind ≠ []

/-- The attempt to read a value with casts. -/
def castSource : Rule String := String.ofList <$> source castExpression

def castSourceProgram : Program castSource := castExpressionProgram.source.map String.ofList

theorem isQuote_apostrophe : isQuote '\'' = true := rfl

theorem isQuote_quotationMark : isQuote '"' = true := rfl

def uncastProgram : Program uncast :=
  (Program.literal '\'' isQuote_apostrophe).orElse
    ((Program.literal '"' isQuote_quotationMark).orElse (.bare false))

theorem read_castSource_eq_some :
    castSource.read s = some (value, rest) ↔
      castExpression.read (skipTrivia s) = some ((), rest) ∧
        skipTrivia s = value.toList ++ rest := by
  rw [castSource, read_map, read_source, Option.map_map, Option.map_eq_some_iff]
  constructor
  · rintro ⟨⟨⟨⟩, after⟩, h, he⟩
    simp only [Function.comp_apply, Prod.mk.injEq] at he
    obtain ⟨rfl, rfl⟩ := he
    obtain ⟨u, hu⟩ := read_suffix h
    refine ⟨h, ?_⟩
    rw [← hu]
    simp
  · rintro ⟨h, hs⟩
    refine ⟨((), rest), h, ?_⟩
    simp [hs]

theorem rule_of_castSource (h : castSource.read s = some (value, rest)) :
    rule.read s = some (value, rest) :=
  read_orElse_eq_some.mpr (.inl h)

/-- A value with casts is all of what is read of it alone. -/
theorem castSource_cut (h : castSource.read s = some (value, rest)) :
    Seam value.toList rest ∧ "::".toList <:+: value.toList ∧
      castSource.read value.toList = some (value, []) := by
  obtain ⟨hread, hs⟩ := read_castSource_eq_some.mp h
  have hskip := skipTrivia_skipTrivia s
  rw [hs] at hread hskip
  obtain ⟨u, hu, hseam⟩ := seals_castExpression hread
  obtain rfl := List.append_cancel_right hu
  have hvalue : skipTrivia value.toList = value.toList := by
    rcases skipTrivia_seam hseam with ⟨-, h⟩ | ⟨-, hrest⟩
    · exact List.append_cancel_right (h.symm.trans hskip)
    · rw [hskip] at hrest
      have hle := hrest.length_le
      rw [List.length_append] at hle
      have hnil : value.toList = [] := List.eq_nil_of_length_eq_zero (by omega)
      rw [hnil, skipTrivia_nil]
  obtain ⟨w, v, ho, hc⟩ := read_castExpression_cut hskip hvalue hseam hread
  obtain ⟨behind, hmark, -⟩ := exists_of_read_casts hc
  refine ⟨hseam, ?_, ?_⟩
  · have hprefix : "::".toList <+: skipTrivia v := ⟨behind, hmark.symm⟩
    exact hprefix.isInfix.trans ((skipTrivia_suffix v).trans (read_suffix ho)).isInfix
  · rw [read_castSource_eq_some, hvalue, List.append_nil]
    exact ⟨read_bind_eq_some.mpr ⟨w, v, ho, hc⟩, rfl⟩

theorem isSome_read_casts (s : List Char) :
    (casts.read s).isSome = true ↔ (cast.read s).isSome = true := by
  rw [casts, read_bind]
  cases cast.read s with
  | none => rfl
  | some found => exact iff_of_true (total_iterate () found.2) rfl

theorem read_operand_skipTrivia (s : List Char) : operand.read (skipTrivia s) = operand.read s := by
  simp only [read_operand, read_literal, read_bare, skipTrivia_skipTrivia]

theorem isSome_read_castSource (s : List Char) :
    (castSource.read s).isSome = true ↔ CastFollows s := by
  rw [castSource, read_map, read_source, castExpression_eq, read_bind, read_operand_skipTrivia]
  unfold CastFollows
  cases operand.read s with
  | none => simp
  | some found =>
    obtain ⟨w, middle⟩ := found
    simp [isSome_read_casts, isSome_read_cast]

theorem castSource_eq_none (h : ¬CastFollows s) : castSource.read s = none := by
  rw [← isSome_read_castSource] at h
  simpa using h

theorem rule_of_not_castFollows (h : ¬CastFollows s) : rule.read s = uncast.read s := by
  rw [rule_eq, read_orElse, ← castSource, castSource_eq_none h, Option.none_or]

/-- A value is looked for again from where the attempt to read casts began. -/
theorem run_of_not_castFollows {text : List Char} {c : Checked.Cursor} {misses : List Miss}
    (h : ¬CastFollows s) (hf : c.Follows text s misses) :
    ∃ tried back, Checked.run text castSourceProgram c = .ok (none, tried) ∧
      tried.moveTo text c.pos = .ok back ∧ back.pos = c.pos ∧
      back.Follows text s (misses ++ (castSource.run s).misses) ∧
      Checked.run text program c = Checked.run text uncastProgram back := by
  obtain ⟨tried, r, htried, hfollows, -⟩ := Checked.sound_run text castSourceProgram hf
  obtain ⟨back, hback, hpos, hf'⟩ := hfollows.moveTo_eq hf.place
  rw [castSource_eq_none h] at htried
  refine ⟨tried, back, htried, hback, hpos, hf', ?_⟩
  show (Checked.run text castSourceProgram).orElse text (Checked.run text uncastProgram) c = _
  rw [Checked.Step.orElse, htried]
  show (tried.moveTo text c.pos >>= Checked.run text uncastProgram) = _
  rw [hback]
  rfl

/-- A value with casts is the text from its first token on, as it is written, up to the end of its
last type, and read alone it is all of itself. It is read where a cast follows the operand. Where
none does, the attempt goes back to where it began, and the value is what it is without casts. -/
theorem cast_verbatim (s : List Char) :
    (∀ value rest, castSource.read s = some (value, rest) →
      rule.read s = some (value, rest) ∧ skipTrivia s = value.toList ++ rest ∧
      (∃ c t, value.toList = c :: t ∧ Unicode.isBlank c = false) ∧
      (∃ c, value.toList.getLast? = some c ∧ (isWordChar c = true ∨ c = ')' ∨ c = ']')) ∧
      "::".toList <:+: value.toList ∧
      castSource.read value.toList = some (value, []) ∧
      rule.read value.toList = some (value, [])) ∧
    ((castSource.read s).isSome = true ↔ CastFollows s) ∧
    (¬CastFollows s → rule.read s = uncast.read s ∧
      ∀ (text : List Char) (c : Checked.Cursor) (misses : List Miss), c.Follows text s misses →
        ∃ tried back, Checked.run text castSourceProgram c = .ok (none, tried) ∧
          tried.moveTo text c.pos = .ok back ∧ back.pos = c.pos ∧
          back.Follows text s (misses ++ (castSource.run s).misses) ∧
          Checked.run text program c = Checked.run text uncastProgram back) := by
  refine ⟨fun value rest h => ?_, isSome_read_castSource s, fun h =>
    ⟨rule_of_not_castFollows h, fun _ _ _ hf => run_of_not_castFollows h hf⟩⟩
  obtain ⟨hseam, hinfix, halone⟩ := castSource_cut h
  obtain ⟨-, hs⟩ := read_castSource_eq_some.mp h
  have hne : value.toList ≠ [] := by
    rintro hnil
    rw [hnil] at hinfix
    exact absurd (List.infix_nil.mp hinfix) (by decide)
  refine ⟨rule_of_castSource h, hs, ?_, ?_, hinfix, halone, rule_of_castSource halone⟩
  · obtain ⟨c, t, hct⟩ := List.exists_cons_of_ne_nil hne
    rw [hct, List.cons_append] at hs
    exact ⟨c, t, hct, isBlank_of_skipTrivia hs⟩
  · obtain ⟨c, hlast⟩ := Option.ne_none_iff_exists'.mp (mt List.getLast?_eq_none_iff.mp hne)
    refine ⟨c, hlast, ?_⟩
    rcases hseam c hlast with hc | hc | ⟨hc, -⟩
    · exact .inr (.inl hc)
    · exact .inr (.inr hc)
    · exact .inl hc

/-- A comment on either side of a value with an array type, and one where a cast would stand. -/
theorem cast_verbatim_array :
    let s := " /* a */ 'x' :: numeric(10, 2)[] -- b".toList
    let uncasted := " 'x' /* ::text */".toList
    castSource.read s = some ("'x' :: numeric(10, 2)[]", " -- b".toList) ∧
      rule.read "'x' :: numeric(10, 2)[]".toList = some ("'x' :: numeric(10, 2)[]", []) ∧
      ¬CastFollows uncasted ∧ rule.read uncasted = some ("x", " /* ::text */".toList) := by
  intro s uncasted
  have h : castSource.read s = some ("'x' :: numeric(10, 2)[]", " -- b".toList) := by
    decide +kernel
  obtain ⟨-, -, -, -, -, -, halone⟩ := (cast_verbatim s).1 _ _ h
  have hcast : ¬CastFollows uncasted := by
    rw [← (cast_verbatim uncasted).2.1]
    decide +kernel
  have hvalue : uncast.read uncasted = some ("x", " /* ::text */".toList) := by decide +kernel
  exact ⟨h, halone, hcast, ((cast_verbatim uncasted).2.2 hcast).1.trans hvalue⟩

end Value

end TableSchema
