import Mathlib.Data.List.Forall2
import TableSchema.BigQuery.Ddl
import TableSchema.Proofs.ColumnMapLaws
import TableSchema.Table.Json

/-!
# Reading and the dialect

The dialect that a text is read with is put down in the table, or in the error, and decides nothing
there: reading with another one gives what changing the dialect afterwards gives.
-/

namespace TableSchema

-- ---------------------------------------------------------------------------
-- Tables that differ in their dialects
-- ---------------------------------------------------------------------------

/-- Tables that differ in nothing but the dialects of the table and of its columns. -/
structure Table.SameButDialect (a b : Table) : Prop where
  schema : a.schema = b.schema
  name : a.name = b.name
  temporary : a.temporary = b.temporary
  columns : List.Forall₂ (fun x y => x.1 = y.1 ∧ ∃ dialect, { x.2 with dialect } = y.2)
    a.columns.entries b.columns.entries
  constraints : a.constraints = b.constraints

theorem ColumnMap.map_withDialect_eq {columns other : ColumnMap} {dialect : Option Dialect}
    (h : List.Forall₂ (fun x y => x.1 = y.1 ∧ ∃ dialect, { x.2 with dialect } = y.2)
      columns.entries other.entries)
    (hd : ∀ column ∈ other.toList, column.dialect = dialect) :
    columns.map (·.withDialect dialect) = other := by
  obtain ⟨entries⟩ := columns
  obtain ⟨others⟩ := other
  simp only [ColumnMap.map, ColumnMap.toList, ColumnMap.mk.injEq, List.mem_map] at h hd ⊢
  induction h with
  | nil => rfl
  | @cons x y entries others hxy _ ih =>
    obtain ⟨key, column⟩ := x
    obtain ⟨hk, given, hc⟩ := hxy
    have hy : y.2.dialect = dialect := hd _ ⟨y, List.mem_cons_self .., rfl⟩
    rw [List.map_cons, ih fun c ⟨e, he, hec⟩ => hd c ⟨e, List.mem_cons_of_mem _ he, hec⟩]
    refine congrArg (· :: others) (Prod.ext hk ?_)
    rw [← hc] at hy ⊢
    rw [← hy]
    rfl

/-- Changing the dialect puts the given one everywhere and changes nothing else. -/
theorem Table.withDialect_eq_iff (table other : Table) (dialect : Option Dialect) :
    table.withDialect dialect = other ↔
      table.SameButDialect other ∧ other.dialect = dialect ∧
        ∀ column ∈ other.columns.toList, column.dialect = dialect := by
  constructor
  · rintro rfl
    refine ⟨⟨rfl, rfl, rfl, ?_, rfl⟩, rfl, ?_⟩
    · rw [withDialect, ColumnMap.entries_map, List.forall₂_map_right_iff]
      exact List.forall₂_same.mpr fun _ _ => ⟨rfl, dialect, rfl⟩
    · simp only [withDialect, ColumnMap.toList, ColumnMap.entries_map, List.map_map, List.mem_map]
      rintro _ ⟨_, -, rfl⟩
      rfl
  · rintro ⟨h, hd, hc⟩
    obtain ⟨schema, name, temporary, columns, constraints, given⟩ := table
    obtain ⟨schema', name', temporary', columns', constraints', given'⟩ := other
    obtain ⟨rfl, rfl, rfl, hcolumns, rfl⟩ := h
    rw [withDialect, Table.mk.injEq]
    exact ⟨rfl, rfl, rfl, ColumnMap.map_withDialect_eq hcolumns hc, rfl, hd.symm⟩

-- ---------------------------------------------------------------------------
-- Reading with another dialect
-- ---------------------------------------------------------------------------

theorem Column.mark_withDialect (kind : ConstraintKind) (column : Column)
    (dialect : Option Dialect) :
    kind.mark (column.withDialect dialect) = (kind.mark column).withDialect dialect := by
  cases kind <;> rfl

namespace Table

theorem ofStatement_dialect (statement : Statement) (d₁ d₂ : Option Dialect) :
    ofStatement statement d₂ = (·.withDialect d₂) <$> ofStatement statement d₁ := by
  have hdeclared (definitions : List ColumnDefinition) :
      ColumnMap.ofList (definitions.map fun d => .ofDefinition d d₂) =
        (ColumnMap.ofList (definitions.map fun d => .ofDefinition d d₁)).map
          (·.withDialect d₂) := by
    rw [← ColumnMap.map_ofList (f := (·.withDialect d₂)) fun _ => rfl, List.map_map]
    rfl
  unfold ofStatement
  dsimp only
  rw [hdeclared, ColumnMap.resolve_map fun kind c => c.mark_withDialect kind d₂]
  generalize ColumnMap.resolve _ _ = resolved
  cases resolved <;> rfl

theorem ofStatement_error {statement : Statement} {dialect : Option Dialect} {e : Error}
    (h : ofStatement statement dialect = .error e) : ∃ name kind, e = .unknownColumn name kind := by
  unfold ofStatement at h
  dsimp only at h
  generalize hr : ColumnMap.resolve _ _ = resolved at h
  cases resolved with
  | ok columns => cases h
  | error e' =>
    cases h
    exact ColumnMap.resolve_error hr

/-- Reading with two dialects succeeds or fails alike. The tables differ by a change of the dialect
and the errors by the dialect of what could not be read; the change bears on nothing else. -/
theorem parse_dialect (text : String) (d₁ d₂ : Option Dialect) :
    (match parse text d₁, parse text d₂ with
      | .ok t₁, .ok t₂ =>
        t₁.withDialect d₂ = t₂ ∧
          (∀ case, (t₁.withDialect d₂).fields case = t₂.fields case ∧
            (t₁.withDialect d₂).ddl case = t₂.ddl case) ∧
          (t₁.withDialect d₂).toJson = t₂.toJson
      | .error e₁, .error e₂ =>
        (∃ e : ParseError, e₁ = .parse { e with dialect := d₁ } ∧
            e₂ = .parse { e with dialect := d₂ }) ∨
          e₁ = e₂ ∧ ∀ e, e₁ ≠ .parse e
      | _, _ => False) ∧
    ∀ (table other : Table) (dialect : Option Dialect),
      table.withDialect dialect = other ↔
        table.SameButDialect other ∧ other.dialect = dialect ∧
          ∀ column ∈ other.columns.toList, column.dialect = dialect := by
  refine ⟨?_, withDialect_eq_iff⟩
  unfold parse
  by_cases hb : Text.isBlankText text.toList
  · simp [hb]
  · simp only [hb]
    cases Statement.read text with
    | error e => exact .inl ⟨e, rfl, rfl⟩
    | ok statement =>
      simp only [ofStatement_dialect statement d₁ d₂]
      cases h : ofStatement statement d₁ with
      | ok table => exact ⟨rfl, fun _ => ⟨rfl, rfl⟩, rfl⟩
      | error e =>
        obtain ⟨name, kind, rfl⟩ := ofStatement_error h
        exact .inr ⟨rfl, by simp⟩

end Table

end TableSchema
