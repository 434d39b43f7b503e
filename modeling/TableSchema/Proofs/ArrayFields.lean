import TableSchema.Proofs.Rendering

/-!
# Fields of arrays

The field of an array nests a field for each further dimension: `Field.Chain`. The number of levels
is the number of dimensions, and what each level says follows from its place alone.
-/

namespace TableSchema

open BigQuery

-- ---------------------------------------------------------------------------
-- Levels of nested fields
-- ---------------------------------------------------------------------------

namespace BigQuery.Field

/-- A field and the fields nested in it, from the outside in. Each but the last has exactly one. -/
inductive Chain : Field → List Field → Prop
  | leaf {field : Field} (h : field.fields = []) : Chain field [field]
  | nest {field inner : Field} {levels : List Field} (h : field.fields = [inner])
      (hi : Chain inner levels) : Chain field (field :: levels)

section Dimension

variable (element : FieldType) (index inner : Nat)

theorem dimension_name :
    (dimension element index inner).name = "dimension_" ++ toString index := by
  cases inner <;> rfl

theorem dimension_description : (dimension element index inner).description = none := by
  cases inner <;> rfl

theorem dimension_mode : (dimension element index inner).mode = .repeated := by
  cases inner <;> rfl

theorem dimension_type :
    (dimension element index inner).type = if inner = 0 then element else .record := by
  cases inner <;> rfl

/-- The levels inside a dimension, numbered from its own index on. -/
def levelsOf : List Field :=
  (List.range (inner + 1)).map fun k => dimension element (index + k) (inner - k)

theorem levelsOf_succ :
    levelsOf element index (inner + 1) =
      dimension element index (inner + 1) :: levelsOf element (index + 1) inner := by
  rw [levelsOf, List.range_succ_eq_map, List.map_cons, List.map_map, levelsOf]
  simp [Function.comp_def, Nat.add_right_comm, Nat.add_assoc]

/-- The index grows with each level as the number of levels below it shrinks. -/
theorem chain_dimension :
    (dimension element index inner).Chain (levelsOf element index inner) := by
  induction inner generalizing index with
  | zero => exact .leaf rfl
  | succ inner ih =>
    rw [levelsOf_succ]
    exact .nest rfl (ih (index + 1))

end Dimension

end BigQuery.Field

-- ---------------------------------------------------------------------------
-- Fields of columns
-- ---------------------------------------------------------------------------

namespace Column

variable (column : Column) (case : NameCase) (element : FieldType)

theorem fieldOf_name : (column.fieldOf case element).name = case.apply column.name := by
  unfold fieldOf
  split <;> rfl

theorem fieldOf_description : (column.fieldOf case element).description = column.comment := by
  unfold fieldOf
  split <;> rfl

theorem fieldOf_mode : (column.fieldOf case element).mode = column.mode := by
  unfold fieldOf
  split <;> rfl

theorem fieldOf_type :
    (column.fieldOf case element).type = if column.dimensions ≤ 1 then element else .record := by
  unfold fieldOf
  split <;> simp [*]

/-- The field of the column and the dimensions after the first inside it. -/
def levels : List Field :=
  column.fieldOf case element ::
    match column.dimensions with
    | 0 | 1 => []
    | inner + 2 => Field.levelsOf element 1 inner

theorem chain_fieldOf : (column.fieldOf case element).Chain (column.levels case element) := by
  unfold levels fieldOf
  match column.dimensions with
  | 0 | 1 => exact .leaf rfl
  | inner + 2 => exact .nest rfl (Field.chain_dimension element 1 inner)

theorem length_levels : (column.levels case element).length = max column.dimensions 1 := by
  unfold levels
  split <;> simp [Field.levelsOf, *]

theorem getElem_levels_zero (hk : 0 < (column.levels case element).length) :
    (column.levels case element)[0] = column.fieldOf case element :=
  rfl

theorem getElem_levels_succ {k : Nat} (hk : k + 1 < (column.levels case element).length) :
    (column.levels case element)[k + 1] =
      .dimension element (k + 1) (column.dimensions - (k + 2)) := by
  have hdimensions := hk
  rw [length_levels] at hdimensions
  obtain ⟨inner, hd⟩ : ∃ inner, column.dimensions = inner + 2 :=
    ⟨column.dimensions - 2, by omega⟩
  simp [levels, hd, Field.levelsOf, Nat.add_comm 1 k]

/-- The field of a column with a type has as many levels as the column has dimensions, and at least
one. The outermost has the name and the description of the column and the others a number, the
innermost has the type of the elements and the others are records. Arrays are repeated at every
level, whether or not the column may be null. -/
theorem field_levels {column : Column} {element : FieldType} (h : column.fieldType = .ok element)
    (case : NameCase) :
    ∃ field levels, column.field case = .ok field ∧ field.Chain levels ∧
      levels.length = max column.dimensions 1 ∧
      ∀ (k : Nat) (hk : k < levels.length),
        levels[k].name =
            (if k = 0 then case.apply column.name else "dimension_" ++ toString k) ∧
          levels[k].description = (if k = 0 then column.comment else none) ∧
          levels[k].type = (if k + 1 = levels.length then element else .record) ∧
          levels[k].mode =
            (if 1 ≤ column.dimensions then .repeated
              else if column.notNull then .required else .nullable) := by
  refine ⟨_, column.levels case element, column.field_of_mappable h case,
    column.chain_fieldOf case element, column.length_levels case element, fun k hk => ?_⟩
  have hlength := column.length_levels case element
  cases k with
  | zero =>
    have hinnermost : 0 + 1 = (column.levels case element).length ↔ column.dimensions ≤ 1 := by
      omega
    simp [hinnermost, getElem_levels_zero, fieldOf_name, fieldOf_description, fieldOf_type,
      fieldOf_mode, mode, Mode.ofColumn, Nat.one_le_iff_ne_zero, Nat.pos_iff_ne_zero]
  | succ k =>
    have hinnermost : k + 1 + 1 = (column.levels case element).length ↔
        column.dimensions - (k + 2) = 0 := by omega
    have harray : 1 ≤ column.dimensions := by omega
    simp [hinnermost, harray, getElem_levels_succ, Field.dimension_name,
      Field.dimension_description, Field.dimension_type, Field.dimension_mode]

/-- Three dimensions of a column that may not be null. -/
theorem field_levels_matrix :
    let column : Column :=
      { name := "Grid", dataType := "REAL", dimensions := 3, notNull := true, comment := "cells" }
    column.fieldType = .ok .float ∧
      ∃ field levels, column.field .lower = .ok field ∧ field.Chain levels ∧ levels.length = 3 := by
  intro column
  have hf : column.fieldType = .ok .float := by decide +kernel
  obtain ⟨field, levels, hfield, hchain, hlength, -⟩ := field_levels hf .lower
  exact ⟨hf, field, levels, hfield, hchain, hlength⟩

end Column

end TableSchema
