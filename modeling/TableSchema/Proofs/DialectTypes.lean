import Mathlib.Data.List.Find
import Mathlib.Logic.Basic
import TableSchema.Proofs.ColumnMapLaws
import TableSchema.Proofs.Rendering

/-!
# Types and the dialect

The dialect of a column bears on the type of a date and on the type of a number without a length,
and on no other type: `BigQuery.DialectDecides`. It never bears on whether there is a type, so a
change of the dialect keeps every other field of a table, and the error of a table that has none.
-/

namespace TableSchema

open BigQuery

namespace BigQuery

/-- Two dialects have different types for this name and length. -/
def DialectDecides (name : String) (length : Option Length) (d₁ d₂ : Option Dialect) : Prop :=
  name = "DATE" ∧ Xor (d₁ = some .oracle) (d₂ = some .oracle) ∨
    name ∈ numericFamily ∧ length = none ∧
      Xor (d₁ ∈ [some .oracle, some .postgresql]) (d₂ ∈ [some .oracle, some .postgresql])

-- ---------------------------------------------------------------------------
-- Rules and the dialect
-- ---------------------------------------------------------------------------

section Rules

variable {name : String} {d₁ d₂ : Option Dialect}

theorem only_or_exactly_date {rule : TypeRule} (h : rule ∈ typeRules) :
    rule.only = none ∨ rule.patterns = [.exactly "DATE"] := by
  revert rule
  simp [typeRules]

theorem applies_congr {rule : TypeRule} (h : rule ∈ typeRules) (hn : name ≠ "DATE") :
    rule.applies name d₁ = rule.applies name d₂ := by
  rcases only_or_exactly_date h with h | h
  · simp [TypeRule.applies, h]
  · simp [TypeRule.applies, h, Pattern.matchesName, beq_eq_false_iff_ne.mpr hn]

theorem find?_typeRules_congr (hn : name ≠ "DATE") (d₁ d₂ : Option Dialect) :
    typeRules.find? (·.applies name d₁) = typeRules.find? (·.applies name d₂) :=
  List.find?_congr fun _ h => applies_congr h hn

theorem find?_date (dialect : Option Dialect) :
    (typeRules.find? (·.applies "DATE" dialect)).map (·.target) =
      some (if dialect = some .oracle then .datetime else .date) := by
  rcases dialect with _ | _ | _ | _ | _ <;> decide

theorem find?_numericFamily (h : name ∈ numericFamily) (dialect : Option Dialect) :
    typeRules.find? (·.applies name dialect) = none := by
  have hnone : ∀ name ∈ numericFamily,
      name ≠ "DATE" ∧ (typeRules.find? (·.applies name none)).isNone := by decide
  obtain ⟨hn, hf⟩ := hnone name h
  rw [find?_typeRules_congr hn dialect none, ← Option.isNone_iff_eq_none]
  exact hf

end Rules

-- ---------------------------------------------------------------------------
-- Types of names
-- ---------------------------------------------------------------------------

section Types

variable {dataType : String} {length : Option Length} {scale : Option Nat}

theorem unboundedNumbers_iff {dialect : Option Dialect} :
    unboundedNumbers dialect = true ↔ dialect ∈ [some .oracle, some .postgresql] := by
  rcases dialect with _ | _ | _ | _ | _ <;> simp [unboundedNumbers]

theorem fieldType_date (h : Unicode.upperCase dataType = "DATE") (dialect : Option Dialect) :
    fieldType dataType length scale dialect =
      .ok (if dialect = some .oracle then .datetime else .date) := by
  obtain ⟨rule, hr, ht⟩ := Option.map_eq_some_iff.mp (find?_date dialect)
  simp [fieldType, h, hr, ht]

theorem fieldType_numericFamily (h : Unicode.upperCase dataType ∈ numericFamily)
    (dialect : Option Dialect) :
    fieldType dataType length scale dialect = .ok (numericType length scale dialect) := by
  simp [fieldType, find?_numericFamily h, h]

theorem fieldType_congr (hd : Unicode.upperCase dataType ≠ "DATE")
    (hn : Unicode.upperCase dataType ∉ numericFamily) (d₁ d₂ : Option Dialect) :
    fieldType dataType length scale d₁ = fieldType dataType length scale d₂ := by
  simp [fieldType, find?_typeRules_congr hd d₁ d₂, hn]

theorem numericType_none (scale : Option Nat) (dialect : Option Dialect) :
    numericType none scale dialect =
      if dialect ∈ [some .oracle, some .postgresql] then .numeric else .integer := by
  simp only [numericType, ← unboundedNumbers_iff]

theorem numericType_some (length : Length) (scale : Option Nat) (d₁ d₂ : Option Dialect) :
    numericType (some length) scale d₁ = numericType (some length) scale d₂ := by
  cases length <;> rfl

theorem ite_ne_ite_iff {p q : Prop} [Decidable p] [Decidable q] {a b : α} (h : a ≠ b) :
    (if p then a else b) ≠ (if q then a else b) ↔ Xor p q := by
  by_cases hp : p <;> by_cases hq : q <;> simp [Xor, hp, hq, h, h.symm]

theorem fieldType_ne_iff (d₁ d₂ : Option Dialect) :
    fieldType dataType length scale d₁ ≠ fieldType dataType length scale d₂ ↔
      DialectDecides (Unicode.upperCase dataType) length d₁ d₂ := by
  by_cases hd : Unicode.upperCase dataType = "DATE"
  · have hn : "DATE" ∉ numericFamily := by decide
    have hne : FieldType.datetime ≠ .date := by decide
    rw [fieldType_date hd, fieldType_date hd, ne_eq, Except.ok.injEq, ← ne_eq,
      ite_ne_ite_iff hne]
    simp [DialectDecides, hd, hn]
  by_cases hn : Unicode.upperCase dataType ∈ numericFamily
  · have hne : FieldType.numeric ≠ .integer := by decide
    rw [fieldType_numericFamily hn, fieldType_numericFamily hn, ne_eq, Except.ok.injEq, ← ne_eq]
    cases length with
    | none =>
      rw [numericType_none, numericType_none, ite_ne_ite_iff hne]
      simp [DialectDecides, hd, hn]
    | some length => simp [DialectDecides, hd, numericType_some length scale d₁ d₂]
  · have hsame : fieldType dataType length scale d₁ = fieldType dataType length scale d₂ :=
      fieldType_congr hd hn d₁ d₂
    simp [DialectDecides, hd, hn, hsame]

/-- A name that has a type in one dialect has one in every dialect, and one that has none has none
in any. -/
theorem fieldType_error_congr {d₁ d₂ : Option Dialect} {e : Error}
    (h : fieldType dataType length scale d₁ = .error e) :
    fieldType dataType length scale d₂ = .error e := by
  by_cases hd : Unicode.upperCase dataType = "DATE"
  · rw [fieldType_date hd] at h
    cases h
  by_cases hn : Unicode.upperCase dataType ∈ numericFamily
  · rw [fieldType_numericFamily hn] at h
    cases h
  · rw [← fieldType_congr hd hn d₁]
    exact h

end Types

end BigQuery

-- ---------------------------------------------------------------------------
-- Fields of columns
-- ---------------------------------------------------------------------------

theorem BigQuery.Field.dimension_injective {index inner : Nat} :
    Function.Injective fun element => Field.dimension element index inner := by
  induction inner generalizing index with
  | zero =>
    intro e₁ e₂ h
    simpa [Field.dimension] using h
  | succ inner ih =>
    intro e₁ e₂ h
    simp only [Field.dimension, Field.mk.injEq, List.cons.injEq] at h
    exact ih h.2.2.2.2.1

namespace Column

theorem fieldOf_injective (column : Column) (case : NameCase) :
    Function.Injective (column.fieldOf case) := by
  intro e₁ e₂ h
  unfold fieldOf at h
  split at h
  · simpa using h
  · simpa using h
  · simp only [Field.mk.injEq, List.cons.injEq] at h
    exact Field.dimension_injective h.2.2.2.2.1

theorem field_withDialect_ne_iff (column : Column) (dialect : Option Dialect) (case : NameCase) :
    (column.withDialect dialect).field case ≠ column.field case ↔
      DialectDecides (Unicode.upperCase column.dataType) column.length column.dialect dialect := by
  have hmap : Function.Injective (Except.map (column.fieldOf case) : Except Error _ → _) := by
    rintro (e₁ | t₁) (e₂ | t₂) h
    · simpa [Except.map] using h
    · cases h
    · cases h
    · simpa [Except.map] using column.fieldOf_injective case (by simpa [Except.map] using h)
  rw [← fieldType_ne_iff, ne_comm]
  exact hmap.ne_iff

theorem mappable_withDialect {column : Column} {dialect : Option Dialect} :
    (column.withDialect dialect).Mappable ↔ column.Mappable := by
  have hany {c : Column} {d : Option Dialect} (h : (c.withDialect d).Mappable) : c.Mappable := by
    obtain ⟨type, ht⟩ := h
    cases hc : c.fieldType with
    | ok type => exact ⟨type, hc⟩
    | error e =>
      have he : (c.withDialect d).fieldType = .error e := fieldType_error_congr hc
      rw [he] at ht
      cases ht
  exact ⟨hany, fun h => hany (d := column.dialect) h⟩

end Column

-- ---------------------------------------------------------------------------
-- Fields of tables
-- ---------------------------------------------------------------------------

namespace Table

theorem toList_withDialect (table : Table) (dialect : Option Dialect) :
    (table.withDialect dialect).columns.toList =
      table.columns.toList.map (·.withDialect dialect) := by
  simp [withDialect, ColumnMap.toList, ColumnMap.entries_map, Function.comp_def]

theorem fields_withDialect_error {table : Table} {case : NameCase} {e : Error}
    (h : table.fields case = .error e) (dialect : Option Dialect) :
    (table.withDialect dialect).fields case = .error e := by
  rcases all_or_first_not Column.Mappable table.columns.toList with
    hall | ⟨before, column, after, hc, hb, hn⟩
  · obtain ⟨fields, hf⟩ := exists_fields_iff.mpr hall
    rw [hf] at h
    cases h
  · rw [fields_eq_error hc hb hn] at h
    cases h
    have hchanged : (table.withDialect dialect).columns.toList =
        before.map (·.withDialect dialect) ++
          column.withDialect dialect :: after.map (·.withDialect dialect) := by
      rw [toList_withDialect, hc, List.map_append, List.map_cons]
    refine fields_eq_error hchanged ?_ (mt Column.mappable_withDialect.mp hn) case
    simp only [List.forall_mem_map, Column.mappable_withDialect]
    exact hb

theorem exists_fields_withDialect_iff {table : Table} {case : NameCase} (dialect : Option Dialect) :
    (∃ fields, (table.withDialect dialect).fields case = .ok fields) ↔
      ∃ fields, table.fields case = .ok fields := by
  simp [exists_fields_iff, toList_withDialect, Column.mappable_withDialect]

theorem forall₂_fields {table : Table} {case : NameCase} {fields : List Field}
    (h : table.fields case = .ok fields) :
    List.Forall₂ (fun column field => column.field case = .ok field) table.columns.toList fields :=
  forall₂_of_mapM_eq_ok h

/-- Two dialects differ for dates, of which Oracle's have a time of day, and for numbers without a
length, which are whole numbers except in Oracle and PostgreSQL. A change of the dialect of a table
changes those fields alone, and lets a table without a field list keep its error. -/
theorem fields_withDialect :
    (∀ dataType length scale,
      (∀ d₁ d₂, fieldType dataType length scale d₁ ≠ fieldType dataType length scale d₂ ↔
        DialectDecides (Unicode.upperCase dataType) length d₁ d₂) ∧
      (Unicode.upperCase dataType = "DATE" ∧ (∀ dialect, fieldType dataType length scale dialect =
          .ok (if dialect = some .oracle then .datetime else .date)) ∨
        Unicode.upperCase dataType ∈ numericFamily ∧ length = none ∧
          (∀ dialect, fieldType dataType length scale dialect =
            .ok (if dialect ∈ [some .oracle, some .postgresql] then .numeric else .integer)) ∨
        ∀ d₁ d₂, fieldType dataType length scale d₁ = fieldType dataType length scale d₂)) ∧
    (∀ (column : Column) (dialect : Option Dialect),
      ((column.withDialect dialect).Mappable ↔ column.Mappable) ∧
      ∀ case, (column.withDialect dialect).field case ≠ column.field case ↔
        DialectDecides (Unicode.upperCase column.dataType) column.length column.dialect dialect) ∧
    ∀ (table : Table) (dialect : Option Dialect),
      (table.withDialect dialect).columns.toList =
        table.columns.toList.map (·.withDialect dialect) ∧
      ∀ case,
        (∃ e, table.fields case = .error e ∧ (table.withDialect dialect).fields case = .error e) ∨
        ∃ fields changed, table.fields case = .ok fields ∧
          (table.withDialect dialect).fields case = .ok changed ∧ fields.length = changed.length ∧
          List.Forall₂ (fun column (pair : Field × Field) => pair.2 ≠ pair.1 ↔
              DialectDecides (Unicode.upperCase column.dataType) column.length column.dialect
                dialect)
            table.columns.toList (fields.zip changed) := by
  refine ⟨fun dataType length scale => ⟨fieldType_ne_iff, ?_⟩,
    fun column dialect => ⟨Column.mappable_withDialect, column.field_withDialect_ne_iff dialect⟩,
    fun table dialect => ⟨table.toList_withDialect dialect, fun case => ?_⟩⟩
  · by_cases hd : Unicode.upperCase dataType = "DATE"
    · exact .inl ⟨hd, fieldType_date hd⟩
    by_cases hn : Unicode.upperCase dataType ∈ numericFamily
    · cases length with
      | none =>
        refine .inr (.inl ⟨hn, rfl, fun dialect => ?_⟩)
        rw [fieldType_numericFamily hn, numericType_none]
      | some length =>
        refine .inr (.inr fun d₁ d₂ => ?_)
        rw [fieldType_numericFamily hn, fieldType_numericFamily hn,
          numericType_some length scale d₁ d₂]
    · exact .inr (.inr (fieldType_congr hd hn))
  · cases hf : table.fields case with
    | error e => exact .inl ⟨e, rfl, fields_withDialect_error hf dialect⟩
    | ok fields =>
      obtain ⟨changed, hc⟩ := (exists_fields_withDialect_iff dialect).mpr ⟨fields, hf⟩
      have hold := forall₂_fields hf
      have hnew := forall₂_fields hc
      rw [toList_withDialect, List.forall₂_map_left_iff] at hnew
      refine .inr ⟨fields, changed, rfl, hc, hold.length_eq.symm.trans hnew.length_eq,
        (forall₂_zip hold hnew).imp fun column pair ⟨ho, hn⟩ => ?_⟩
      rw [← column.field_withDialect_ne_iff dialect case, ho, hn]
      simp

end Table

end TableSchema
