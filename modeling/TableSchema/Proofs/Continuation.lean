import TableSchema.Proofs.Continuation.Statement

/-!
# Text behind a statement

Text behind the semicolon that ends a statement never changes what is read. It is rejected where a
token of it begins another `CREATE TABLE`, and the error tells the first such place.
-/

namespace TableSchema.Statement

open Rule Scan

-- ---------------------------------------------------------------------------
-- The words that begin a statement
-- ---------------------------------------------------------------------------

/-- The words come next in any ASCII case, with trivia before each. -/
def comesNext : List String → List Char → Prop
  | [], _ => True
  | w :: words, s => (nextWord s).map Char.toUpper = w.toList ∧ comesNext words (afterWord s)

/-- `CREATE TABLE` comes next, perhaps with words between that make the table temporary. -/
def createComesNext (s : List Char) : Prop :=
  ∃ duration ∈ [[], ["TEMPORARY"], ["TEMP"]], ∃ scope ∈ [[], ["GLOBAL"], ["LOCAL"]],
    comesNext ("CREATE" :: (scope ++ (duration ++ ["TABLE"]))) s

/-- What follows the next word if that is one of `words`. -/
def skipWord (words : List String) (s : List Char) : List Char :=
  if (nextWord s).map Char.toUpper ∈ words.map String.toList then afterWord s else s

theorem comesNext_skipWord {words : List String} (hw : w ∉ words) :
    (∃ before ∈ [] :: words.map fun v => [v], comesNext (before ++ w :: rest) s) ↔
      comesNext (w :: rest) (skipWord words s) := by
  unfold skipWord
  constructor
  · rintro ⟨before, hb, h⟩
    rcases List.mem_cons.mp hb with rfl | hb
    · rw [if_neg]
      · exact h
      · intro hm
        obtain ⟨v, hv, he⟩ := List.mem_map.mp hm
        obtain rfl := String.toList_inj.mp (he.trans h.1)
        exact hw hv
    · obtain ⟨v, hv, rfl⟩ := List.mem_map.mp hb
      rw [if_pos]
      · exact h.2
      · exact List.mem_map.mpr ⟨v, hv, h.1.symm⟩
  · intro h
    split at h
    next hm =>
      obtain ⟨v, hv, he⟩ := List.mem_map.mp hm
      exact ⟨[v], List.mem_cons_of_mem _ (List.mem_map_of_mem hv), he.symm, h⟩
    next => exact ⟨[], List.mem_cons_self .., h⟩

theorem read_present_anyKeyword (words : List String) (h : words.all isCapital = true)
    (s : List Char) :
    ∃ found, (present (anyKeyword words)).read s = some (found, skipWord words s) := by
  rw [read_present, read_anyKeyword h, skipWord]
  by_cases hm : (nextWord s).map Char.toUpper ∈ words.map String.toList
  · rw [if_pos hm, if_pos hm]; exact ⟨true, rfl⟩
  · rw [if_neg hm, if_neg hm]; exact ⟨false, rfl⟩

theorem isSome_read_keyword (hw : isCapital w = true) (s : List Char) :
    ((keyword w).read s).isSome ↔ (nextWord s).map Char.toUpper = w.toList := by
  rw [read_keyword hw]
  split <;> simp [*]

theorem begins_eq_true_iff (s : List Char) :
    begins s = true ↔ (nextWord s).map Char.toUpper = "CREATE".toList ∧
      comesNext ["TABLE"] (skipWord ["TEMPORARY", "TEMP"]
        (skipWord ["GLOBAL", "LOCAL"] (afterWord s))) := by
  obtain ⟨_, hscope⟩ := read_present_anyKeyword ["GLOBAL", "LOCAL"] rfl (afterWord s)
  obtain ⟨_, hduration⟩ := read_present_anyKeyword ["TEMPORARY", "TEMP"] rfl
    (skipWord ["GLOBAL", "LOCAL"] (afterWord s))
  show (head.read s).isSome ↔ _
  rw [head, read_bind, read_keyword rfl]
  split
  next hc =>
    rw [Option.bind_some, read_bind, hscope, Option.bind_some, read_bind, hduration,
      Option.bind_some, isSome_read_keyword rfl]
    simp [comesNext, hc]
  next hc => exact iff_of_false (by simp) fun h => hc h.1

theorem begins_iff (s : List Char) : begins s = true ↔ createComesNext s := by
  -- None of the words of a duration is that of a scope.
  have hsplit : ∀ duration ∈ [[], ["TEMPORARY"], ["TEMP"]],
      ∃ w rest, duration ++ ["TABLE"] = w :: rest ∧ w ∉ ["GLOBAL", "LOCAL"] := by
    intro duration hd
    simp only [List.mem_cons, List.not_mem_nil, or_false] at hd
    rcases hd with rfl | rfl | rfl <;> exact ⟨_, _, rfl, by decide⟩
  have htable : "TABLE" ∉ ["TEMPORARY", "TEMP"] := by decide
  rw [begins_eq_true_iff]
  constructor
  · rintro ⟨hc, h⟩
    obtain ⟨duration, hd, h⟩ := (comesNext_skipWord htable).mpr h
    obtain ⟨w, rest, he, hw⟩ := hsplit duration hd
    rw [he] at h
    obtain ⟨scope, hs, h⟩ := (comesNext_skipWord hw).mpr h
    exact ⟨duration, hd, scope, hs, hc, by rw [he]; exact h⟩
  · rintro ⟨duration, hd, scope, hs, hc, h⟩
    obtain ⟨w, rest, he, hw⟩ := hsplit duration hd
    refine ⟨hc, (comesNext_skipWord htable).mp ⟨duration, hd, ?_⟩⟩
    rw [he] at h ⊢
    exact (comesNext_skipWord hw).mp ⟨scope, hs, h⟩

-- ---------------------------------------------------------------------------
-- The first statement behind the semicolon
-- ---------------------------------------------------------------------------

/-- The places to which one token after another leads from the start of a text. -/
inductive Boundary (s : List Char) : List Char → Prop where
  | start : Boundary s (skipTrivia s)
  | next : Boundary s place → Boundary s (skipTrivia (pastToken place))

theorem boundary_iff :
    Boundary s place ↔ place = skipTrivia s ∨ Boundary (pastToken s) place := by
  constructor
  · intro h
    induction h with
    | start => exact .inl rfl
    | next _ ih =>
      rcases ih with rfl | ih
      · rw [pastToken_skipTrivia]; exact .inr .start
      · exact .inr (.next ih)
  · rintro (rfl | h)
    · exact .start
    · induction h with
      | start => rw [← pastToken_skipTrivia]; exact .next .start
      | next _ ih => exact .next ih

theorem pastToken_suffix (s : List Char) : pastToken s <:+ s := by
  cases h : skipTrivia s with
  | nil => rw [pastToken, h]; exact List.nil_suffix
  | cons c rest =>
    have hs := skipTrivia_suffix s
    rw [h] at hs
    exact (pastToken_suffix_tail h).trans ((List.suffix_cons c rest).trans hs)

theorem Boundary.suffix (h : Boundary s place) : place <:+ s := by
  induction h with
  | start => exact skipTrivia_suffix s
  | next _ ih => exact (skipTrivia_suffix _).trans ((pastToken_suffix _).trans ih)

/-- The first of the places where a `CREATE TABLE` begins. -/
structure FirstCreate (s place : List Char) : Prop where
  boundary : Boundary s place
  create : createComesNext place
  first : ∀ other, Boundary s other → createComesNext other → other <:+ place

theorem createComesNext_skipTrivia (s : List Char) :
    createComesNext (skipTrivia s) ↔ createComesNext s := by
  simp only [createComesNext, comesNext, nextWord, afterWord, skipTrivia_skipTrivia]

theorem not_createComesNext_nil : ¬ createComesNext [] := by
  rintro ⟨_, _, _, _, hc, _⟩
  rw [nextWord, skipTrivia_nil] at hc
  cases hc

theorem boundary_of_nil (h : skipTrivia s = []) (hp : Boundary s place) : place = [] := by
  have htoken : pastToken s = [] := by rw [pastToken, h]
  induction hp with
  | start => exact h
  | next _ ih => rw [ih, pastToken, skipTrivia_nil]; exact skipTrivia_nil

theorem next?_eq_none (h : next? s = none) (hp : Boundary s place) : ¬ createComesNext place := by
  induction hn : s.length using Nat.strongRecOn generalizing s with
  | ind n ih =>
    cases hs : skipTrivia s with
    | nil => rw [boundary_of_nil hs hp]; exact not_createComesNext_nil
    | cons c rest =>
      rw [next?_of_cons hs] at h
      split at h
      next => cases h
      next hb =>
        rcases boundary_iff.mp hp with rfl | hp
        · rwa [createComesNext_skipTrivia, ← begins_iff]
        · exact ih _ (hn ▸ length_pastToken hs) h hp rfl

theorem next?_eq_some (h : next? s = some place) : FirstCreate s place := by
  induction hn : s.length using Nat.strongRecOn generalizing s with
  | ind n ih =>
    cases hs : skipTrivia s with
    | nil => rw [next?_of_nil hs] at h; cases h
    | cons c rest =>
      rw [next?_of_cons hs] at h
      split at h
      next hb =>
        cases h
        refine ⟨hs ▸ .start, ?_, fun other ho _ => ?_⟩
        · rwa [← hs, createComesNext_skipTrivia, ← begins_iff]
        · rcases boundary_iff.mp ho with rfl | ho
          · exact hs ▸ List.suffix_refl _
          · exact ho.suffix.trans ((pastToken_suffix_tail hs).trans (List.suffix_cons c rest))
      next hb =>
        obtain ⟨hboundary, hcreate, hfirst⟩ := ih _ (hn ▸ length_pastToken hs) h rfl
        refine ⟨boundary_iff.mpr (.inr hboundary), hcreate, fun other ho hc => ?_⟩
        rcases boundary_iff.mp ho with rfl | ho
        · rw [createComesNext_skipTrivia, ← begins_iff] at hc
          exact absurd hc hb
        · exact hfirst other ho hc

-- ---------------------------------------------------------------------------
-- Reading a statement with text behind it
-- ---------------------------------------------------------------------------

theorem begins_append (h : Plain s) (hs : Closed s) (x : List Char) :
    begins (s ++ x) = begins s := by
  show (head.read (s ++ x)).isSome = (head.read s).isSome
  cases hr : head.read s with
  | none => rw [local_head.refuses h hs hr]
  | some found =>
    rw [(local_head.persists h hr (local_head.keeps h hs hr)).2 x]
    rfl

/-- Options that end at the last character end there in every longer text. -/
theorem pastOptions_append (h : Plain s) (hr : pastOptions s = (.terminator, [])) :
    Closed s ∧ ∀ x, pastOptions (s ++ x) = (.terminator, x) := by
  induction hn : s.length using Nat.strongRecOn generalizing s with
  | ind n ih =>
    cases hs : skipTrivia s with
    | nil => rw [pastOptions_of_nil hs] at hr; cases hr
    | cons c rest =>
      rw [pastOptions_of_cons hs] at hr
      split at hr
      next hc =>
        cases hr
        subst hc
        have hclosed : Closed s := by rw [← closed_skipTrivia_iff h, hs]; exact .semicolon
        refine ⟨hclosed, fun x => ?_⟩
        have hskip : skipTrivia (s ++ x) = ';' :: x := by rw [skipTrivia_append h hclosed, hs]; rfl
        rw [pastOptions_of_cons hskip, if_pos rfl]
      next hc =>
        split at hr
        next => cases hr
        next hb =>
          obtain ⟨htoken, hx⟩ :=
            ih _ (hn ▸ length_pastToken hs) (h.suffix (pastToken_suffix s)) hr rfl
          have hclosed := closed_of_pastToken h htoken
          refine ⟨hclosed, fun x => ?_⟩
          have hskip : skipTrivia (s ++ x) = c :: (rest ++ x) := by
            rw [skipTrivia_append h hclosed, hs]; rfl
          rw [pastOptions_of_cons hskip, if_neg hc, begins_append h hclosed, if_neg hb,
            pastToken_append h htoken, hx]

/-- A statement is read from a text without comments and backslashes, and the last character of the
text is the semicolon that ends it. -/
structure Terminated (text : List Char) (statement : Statement) : Prop where
  plain : Plain text
  reads : ∃ rest, rule.read text = some (statement, rest) ∧ pastOptions rest = (.terminator, [])

theorem readChars_append (h : Terminated text statement) (s : List Char) :
    readChars (text ++ s) =
      match next? s with
      | some second => .error (.ofSecondStatement (text ++ s) second)
      | none => .ok statement := by
  obtain ⟨hplain, rest, hread, hoptions⟩ := h
  obtain ⟨hclosed, hoptions⟩ := pastOptions_append (hplain.suffix (read_suffix hread)) hoptions
  have hread := (persists_rule hplain hread hclosed).2 s
  cases hn : next? s with
  | none => simp only [readChars_eq, hread, hoptions, hn]
  | some second => simp only [readChars_eq, hread, hoptions, hn]

theorem placeOf_append (before place : List Char) :
    ParseError.placeOf (before ++ place) place = Position.after before := by
  rw [ParseError.placeOf, List.length_append, Nat.add_sub_cancel, List.take_left]

/-- What follows the semicolon that ends a statement is passed over, or it holds another statement
and is rejected at the first place where one begins. -/
theorem read_append (t s : String) (statement : Statement) (h : Terminated t.toList statement) :
    (read (t ++ s) = .ok statement ∧
        ∀ place, Boundary s.toList place → ¬ createComesNext place) ∨
      ∃ before place, (t ++ s).toList = before ++ place ∧ FirstCreate s.toList place ∧
        read (t ++ s) = .error {
          detail := .secondStatement
          position := some (Position.after before)
          kind := .multipleStatements } := by
  rw [read, String.toList_append, readChars_append h]
  cases hn : next? s.toList with
  | none => exact .inl ⟨rfl, fun place hp => next?_eq_none hn hp⟩
  | some place =>
    have hfirst := next?_eq_some hn
    obtain ⟨before, hbefore⟩ := hfirst.boundary.suffix
    refine .inr ⟨t.toList ++ before, place, ?_, hfirst, ?_⟩
    · rw [← hbefore, List.append_assoc]
    · rw [← hbefore, ← List.append_assoc]
      dsimp only
      rw [ParseError.ofSecondStatement, placeOf_append]

theorem read_append_of_second :
    Terminated "CREATE TABLE t (a text DEFAULT ';');".toList
        { temporary := false
          name := ⟨none, "t"⟩
          items := [.column ⟨"a", { words := ["text"] }, { defaultValue := some ";" }⟩] } ∧
      ∃ e, read ("CREATE TABLE t (a text DEFAULT ';');" ++ "x; create temp table u (b int)") =
        .error e ∧ e.kind = .multipleStatements := by
  have h : Terminated "CREATE TABLE t (a text DEFAULT ';');".toList
      { temporary := false
        name := ⟨none, "t"⟩
        items := [.column ⟨"a", { words := ["text"] }, { defaultValue := some ";" }⟩] } :=
    ⟨⟨by decide +kernel, by decide +kernel, by decide +kernel⟩, [';'], by decide +kernel,
      by decide +kernel⟩
  refine ⟨h, ?_⟩
  rcases read_append _ "x; create temp table u (b int)" _ h with ⟨-, hnone⟩ | ⟨_, _, _, _, he⟩
  · -- One token leads to the semicolon and the next one to the second statement.
    refine absurd ?_ (hnone _ (.next (.next .start)))
    rw [← begins_iff]
    decide +kernel
  · exact ⟨_, he, rfl⟩

end TableSchema.Statement
