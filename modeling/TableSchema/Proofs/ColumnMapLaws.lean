import Mathlib.Data.List.Basic
import TableSchema.Proofs.ListLaws
import TableSchema.Table

/-!
# Laws of the columns of a table

What adding, changing and mapping columns does to the keys of a map and to what is found under them,
and what the constraints that are worked into one make of it.
-/

namespace TableSchema

namespace ColumnMap

variable {key other : String} {column : Column} {f : Column → Column}
  {l : List (String × Column)}

-- ---------------------------------------------------------------------------
-- Changing columns where they stand
-- ---------------------------------------------------------------------------

/-- What a change leaves of every column, it leaves of the map. -/
theorem map_modifyKey {g : String × Column → γ}
    (h : ∀ key column, g (key, f column) = g (key, column)) :
    (modifyKey key f l).map g = l.map g := by
  induction l with
  | nil => rfl
  | cons entry rest ih =>
    obtain ⟨k, c⟩ := entry
    by_cases hk : k = key
    · simp [modifyKey, hk, h]
    · simp [modifyKey, hk, ih]

theorem mem_modifyKey {entry : String × Column} (h : entry ∈ modifyKey key f l) :
    entry ∈ l ∨ ∃ column, (key, column) ∈ l ∧ entry = (key, f column) := by
  induction l with
  | nil => simp [modifyKey] at h
  | cons first rest ih =>
    simp only [modifyKey] at h
    split at h
    next hk =>
      rcases List.mem_cons.mp h with h | h
      · exact .inr ⟨first.2, by simp [← hk], h⟩
      · exact .inl (List.mem_cons_of_mem _ h)
    next =>
      rcases List.mem_cons.mp h with h | h
      · exact .inl (h ▸ List.mem_cons_self ..)
      · exact (ih h).imp (List.mem_cons_of_mem _) fun ⟨c, hc, he⟩ => ⟨c, List.mem_cons_of_mem _ hc, he⟩

theorem lookup_modifyKey :
    (modifyKey key f l).lookup other =
      if other = key then (l.lookup other).map f else l.lookup other := by
  induction l with
  | nil => simp [modifyKey]
  | cons first rest ih => simp only [modifyKey]; grind

/-- Under distinct keys a change of one column is a change of every column of that key. -/
theorem modifyKey_eq_map (h : (l.map (·.1)).Nodup) :
    modifyKey key f l =
      l.map fun entry => (entry.1, if entry.1 = key then f entry.2 else entry.2) := by
  induction l with
  | nil => rfl
  | cons entry rest ih =>
    rw [List.map_cons, List.nodup_cons] at h
    by_cases hk : entry.1 = key
    · have hrest : ∀ other ∈ rest, other.1 ≠ key := fun other ho he =>
        h.1 (List.mem_map.mpr ⟨other, ho, he.trans hk.symm⟩)
      have hsame : rest.map (fun entry => (entry.1, if entry.1 = key then f entry.2 else entry.2)) =
          rest := by
        rw [List.map_congr_left (g := id) fun other ho => by rw [if_neg (hrest other ho)]; rfl,
          List.map_id]
      simp [modifyKey, hk, hsame]
    · simp [modifyKey, hk, ih h.2]

theorem modifyKey_of_notMem (h : key ∉ l.map (·.1)) : modifyKey key f l = l := by
  induction l with
  | nil => rfl
  | cons entry rest ih =>
    simp only [List.map_cons, List.mem_cons, not_or] at h
    rw [modifyKey, if_neg (Ne.symm h.1), ih h.2]

theorem keys_modify (columns : ColumnMap) (name : String) (f : Column → Column) :
    (columns.modify name f).keys = columns.keys :=
  map_modifyKey fun _ _ => rfl

theorem contains_modify (columns : ColumnMap) (name other : String) (f : Column → Column) :
    (columns.modify name f).contains other = columns.contains other := by
  rw [contains, get?, modify, lookup_modifyKey]
  split <;> simp [contains, get?]

-- ---------------------------------------------------------------------------
-- Adding a column
-- ---------------------------------------------------------------------------

/-- A column takes the place of the one under its key or stands behind all others. -/
theorem put_eq :
    put key column l =
      if key ∈ l.map (·.1) then modifyKey key (fun _ => column) l else l ++ [(key, column)] := by
  induction l with
  | nil => simp [put]
  | cons entry rest ih =>
    by_cases h : entry.1 = key
    · simp [put, modifyKey, h]
    · simp only [put, modifyKey, h, if_false, List.map_cons, List.mem_cons, Ne.symm h, false_or, ih]
      split <;> simp

theorem keys_put :
    (put key column l).map (·.1) =
      if key ∈ l.map (·.1) then l.map (·.1) else l.map (·.1) ++ [key] := by
  rw [put_eq]
  split
  next => exact map_modifyKey fun _ _ => rfl
  next => simp

theorem nodup_keys_put (h : (l.map (·.1)).Nodup) : ((put key column l).map (·.1)).Nodup := by
  rw [keys_put]
  split
  next => exact h
  next hn => exact List.nodup_append.mpr ⟨h, by simp, by simp; grind⟩

theorem mem_put {entry : String × Column} (h : entry ∈ put key column l) :
    entry = (key, column) ∨ entry ∈ l := by
  induction l with
  | nil => simpa [put] using h
  | cons first rest ih =>
    simp only [put] at h
    split at h
    · rcases List.mem_cons.mp h with h | h
      · exact .inl h
      · exact .inr (List.mem_cons_of_mem _ h)
    · rcases List.mem_cons.mp h with h | h
      · exact .inr (h ▸ List.mem_cons_self ..)
      · exact (ih h).imp_right (List.mem_cons_of_mem _)

theorem lookup_put :
    (put key column l).lookup other = if other = key then some column else l.lookup other := by
  induction l with
  | nil => simp [put, List.lookup_cons]; grind
  | cons first rest ih => simp only [put]; grind

-- ---------------------------------------------------------------------------
-- Keys and what is found under them
-- ---------------------------------------------------------------------------

/-- A map is its keys, each with what is found under it. -/
theorem eq_filterMap_lookup (h : (l.map (·.1)).Nodup) :
    l = (l.map (·.1)).filterMap fun key => (l.lookup key).map (key, ·) := by
  induction l with
  | nil => rfl
  | cons entry rest ih =>
    obtain ⟨first, column⟩ := entry
    rw [List.map_cons, List.nodup_cons] at h
    have hrest : ∀ key ∈ rest.map (·.1), ((first, column) :: rest).lookup key = rest.lookup key := by
      intro key hk
      have hne : (key == first) = false := beq_eq_false_iff_ne.mpr fun he => h.1 (he ▸ hk)
      rw [List.lookup_cons, hne]
    rw [List.map_cons, List.filterMap_cons_some (b := (first, column)) (by simp)]
    refine congrArg _ ((ih h.2).trans (List.filterMap_congr fun key hk => ?_))
    rw [hrest key hk]

theorem lookup_of_mem {entry : String × Column} (h : (l.map (·.1)).Nodup) (he : entry ∈ l) :
    l.lookup entry.1 = some entry.2 := by
  rw [eq_filterMap_lookup h] at he
  obtain ⟨key, -, hkey⟩ := List.mem_filterMap.mp he
  obtain ⟨column, hc, rfl⟩ := Option.map_eq_some_iff.mp hkey
  exact hc

theorem mem_keys_iff : key ∈ l.map (·.1) ↔ (l.lookup key).isSome = true := by
  rw [List.lookup_isSome_iff, List.mem_map]
  simp only [beq_iff_eq, eq_comm (b := key)]

-- ---------------------------------------------------------------------------
-- Mapping all columns
-- ---------------------------------------------------------------------------

theorem entries_map (columns : ColumnMap) :
    (columns.map f).entries = columns.entries.map fun entry => (entry.1, f entry.2) := rfl

theorem lookup_entries_map (columns : ColumnMap) :
    (columns.map f).entries.lookup key = (columns.entries.lookup key).map f := by
  rw [entries_map]
  induction columns.entries with
  | nil => rfl
  | cons first rest ih =>
    obtain ⟨k, c⟩ := first
    simp only [List.map_cons, List.lookup_cons, ih]
    split <;> rfl

variable {columns : ColumnMap}

theorem contains_map (name : String) : (columns.map f).contains name = columns.contains name := by
  simp [contains, get?, lookup_entries_map]

theorem map_insert (hn : ∀ c, (f c).name = c.name) :
    ((columns.map f).insert (f column)).2 = (columns.insert column).2.map f := by
  have hput (key : String) : ∀ l : List (String × Column),
      put key (f column) (l.map fun entry => (entry.1, f entry.2)) =
        (put key column l).map fun entry => (entry.1, f entry.2) := by
    intro l
    induction l with
    | nil => rfl
    | cons first rest ih =>
      simp only [List.map_cons, put, ih]
      split <;> rfl
  simp only [insert, hn]
  exact congrArg _ (hput _ _)

theorem map_ofList (hn : ∀ c, (f c).name = c.name) (l : List Column) :
    ofList (l.map f) = (ofList l).map f := by
  suffices ∀ start : ColumnMap, (l.map f).foldl add (start.map f) = (l.foldl add start).map f from
    this {}
  induction l with
  | nil => exact fun _ => rfl
  | cons c l ih =>
    intro start
    rw [List.map_cons, List.foldl_cons, List.foldl_cons, ← ih, add, add, map_insert hn]

theorem map_modify {g : Column → Column} (hg : ∀ c, g (f c) = f (g c)) (name : String) :
    (columns.map f).modify name g = (columns.modify name g).map f := by
  have hkey (key : String) : ∀ l : List (String × Column),
      modifyKey key g (l.map fun entry => (entry.1, f entry.2)) =
        (modifyKey key g l).map fun entry => (entry.1, f entry.2) := by
    intro l
    induction l with
    | nil => rfl
    | cons first rest ih =>
      simp only [List.map_cons, modifyKey, ih, hg]
      split <;> rfl
  exact congrArg _ (hkey _ _)

theorem resolve_error {constraints : List Constraint} {e : Error}
    (h : columns.resolve constraints = .error e) : ∃ name kind, e = .unknownColumn name kind := by
  let Unknown (e : Error) : Prop := ∃ name kind, e = .unknownColumn name kind
  refine foldlM_error (P := Unknown) (f := constrain) (fun _ constraint _ he => ?_) h
  refine foldlM_error (P := Unknown) (f := markColumn constraint.kind) (fun _ name _ he => ?_) he
  unfold markColumn at he
  split at he <;> cases he
  exact ⟨name, constraint.kind, rfl⟩

/-- Constraints are worked into changed columns as into the columns themselves. -/
theorem resolve_map (hm : ∀ (kind : ConstraintKind) c, kind.mark (f c) = f (kind.mark c))
    (constraints : List Constraint) :
    (columns.map f).resolve constraints = (·.map f) <$> columns.resolve constraints := by
  refine foldlM_hom (f := constrain) (g := (·.map f)) fun columns constraint => ?_
  refine foldlM_hom (f := markColumn constraint.kind) (g := (·.map f)) fun columns name => ?_
  unfold markColumn
  rw [contains_map, map_modify (hm _)]
  split <;> rfl

end ColumnMap

end TableSchema
