import Mathlib.Data.List.Basic
import Mathlib.Data.List.Forall2

/-!
# Laws of lists

What folds and maps over a list come to when a step may fail, and two ways to take a list apart.
-/

namespace TableSchema

-- ---------------------------------------------------------------------------
-- Folds
-- ---------------------------------------------------------------------------

theorem foldlM_invariant {P : α → Prop} {f : α → β → Except ε α} {l : List β} {a c : α}
    (hf : ∀ ⦃a b c⦄, P a → f a b = .ok c → P c) (ha : P a) (h : l.foldlM f a = .ok c) : P c := by
  induction l generalizing a with
  | nil => cases h; exact ha
  | cons b l ih =>
    cases hb : f a b with
    | error e => simp [hb, bind, Except.bind] at h
    | ok a' =>
      simp only [List.foldlM_cons, hb] at h
      exact ih (hf ha hb) h

/-- A fold fails as one of its steps does. -/
theorem foldlM_error {P : ε → Prop} {f : α → β → Except ε α} {l : List β} {a : α} {e : ε}
    (hf : ∀ ⦃a b e⦄, f a b = .error e → P e) (h : l.foldlM f a = .error e) : P e := by
  induction l generalizing a with
  | nil => cases h
  | cons b l ih =>
    cases hb : f a b with
    | error e' =>
      simp only [List.foldlM_cons, hb] at h
      cases h
      exact hf hb
    | ok a' =>
      simp only [List.foldlM_cons, hb] at h
      exact ih h

/-- A fold goes along with a map that goes along with each step. -/
theorem foldlM_hom {f : α → β → Except ε α} {g : α → α} {l : List β} {a : α}
    (h : ∀ a b, f (g a) b = g <$> f a b) : l.foldlM f (g a) = g <$> l.foldlM f a := by
  induction l generalizing a with
  | nil => rfl
  | cons b l ih =>
    rw [List.foldlM_cons, List.foldlM_cons, h]
    cases f a b with
    | error e => rfl
    | ok c => exact ih

-- ---------------------------------------------------------------------------
-- Maps
-- ---------------------------------------------------------------------------

theorem exists_map_eq_ok_iff {f : α → β} {x : Except ε α} :
    (∃ b, f <$> x = .ok b) ↔ ∃ a, x = .ok a := by
  cases x with
  | error e => simp [Functor.map, Except.map]
  | ok a => exact ⟨fun _ => ⟨a, rfl⟩, fun _ => ⟨f a, rfl⟩⟩

theorem mapM_eq_map {f : α → Except ε β} {g : α → β} {l : List α}
    (h : ∀ a ∈ l, f a = .ok (g a)) : l.mapM f = .ok (l.map g) := by
  induction l with
  | nil => rfl
  | cons a l ih =>
    rw [List.mapM_cons, h a (List.mem_cons_self ..),
      ih fun b hb => h b (List.mem_cons_of_mem a hb)]
    rfl

theorem mapM_eq_error {f : α → Except ε β} {before after : List α} {a : α} {e : ε}
    (hb : ∀ b ∈ before, ∃ c, f b = .ok c) (ha : f a = .error e) :
    (before ++ a :: after).mapM f = .error e := by
  induction before with
  | nil => rw [List.nil_append, List.mapM_cons, ha]; rfl
  | cons b before ih =>
    obtain ⟨c, hc⟩ := hb b (List.mem_cons_self ..)
    rw [List.cons_append, List.mapM_cons, hc, ih fun d hd => hb d (List.mem_cons_of_mem b hd)]
    rfl

theorem forall₂_of_mapM_eq_ok {f : α → Except ε β} {l : List α} {m : List β}
    (h : l.mapM f = .ok m) : List.Forall₂ (fun a b => f a = .ok b) l m := by
  induction l generalizing m with
  | nil => cases h; exact .nil
  | cons a l ih =>
    rw [List.mapM_cons] at h
    cases ha : f a with
    | error e => rw [ha] at h; cases h
    | ok b =>
      cases hl : l.mapM f with
      | error e => rw [ha, hl] at h; cases h
      | ok bs =>
        rw [ha, hl] at h
        cases h
        exact .cons ha (ih hl)

theorem exists_mapM_eq_ok_iff {f : α → Except ε β} {l : List α} :
    (∃ m, l.mapM f = .ok m) ↔ ∀ a ∈ l, ∃ b, f a = .ok b := by
  constructor
  · rintro ⟨m, h⟩ a ha
    have hall := forall₂_of_mapM_eq_ok h
    clear h
    induction hall with
    | nil => cases ha
    | cons hb _ ih =>
      rcases List.mem_cons.mp ha with rfl | ha
      · exact ⟨_, hb⟩
      · exact ih ha
  · intro h
    induction l with
    | nil => exact ⟨[], rfl⟩
    | cons a l ih =>
      rw [List.forall_mem_cons] at h
      obtain ⟨⟨b, hb⟩, hl⟩ := h
      obtain ⟨m, hm⟩ := ih hl
      exact ⟨b :: m, by rw [List.mapM_cons, hb, hm]; rfl⟩

theorem forall₂_zip {R : α → β → Prop} {S : α → γ → Prop} {l : List α} {m : List β} {n : List γ}
    (hm : List.Forall₂ R l m) (hn : List.Forall₂ S l n) :
    List.Forall₂ (fun a pair => R a pair.1 ∧ S a pair.2) l (m.zip n) := by
  induction hm generalizing n with
  | nil => cases hn; exact .nil
  | cons hr _ ih =>
    cases hn with
    | cons hs hn => exact .cons ⟨hr, hs⟩ (ih hn)

-- ---------------------------------------------------------------------------
-- Parts of a list
-- ---------------------------------------------------------------------------

theorem all_or_first_not (P : α → Prop) (l : List α) :
    (∀ a ∈ l, P a) ∨ ∃ before a after, l = before ++ a :: after ∧ (∀ b ∈ before, P b) ∧ ¬P a := by
  induction l with
  | nil => exact .inl (by simp)
  | cons a l ih =>
    by_cases ha : P a
    · rcases ih with h | ⟨before, b, after, rfl, hb, hn⟩
      · exact .inl (List.forall_mem_cons.mpr ⟨ha, h⟩)
      · exact .inr ⟨a :: before, b, after, rfl, List.forall_mem_cons.mpr ⟨ha, hb⟩, hn⟩
    · exact .inr ⟨[], a, l, rfl, by simp, ha⟩

theorem eraseDups_concat [BEq α] [LawfulBEq α] (l : List α) (a : α) :
    (l ++ [a]).eraseDups = if a ∈ l then l.eraseDups else l.eraseDups ++ [a] := by
  rw [List.eraseDups_append]
  split
  next h => simp [List.removeAll, h]
  next h => simp [List.removeAll, h, List.eraseDups_cons]

end TableSchema
