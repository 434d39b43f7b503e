import TableSchema.Proofs.CaseMappings
import TableSchema.Proofs.ColumnLog
import TableSchema.Proofs.Invariants
import TableSchema.Proofs.LetterCase.Statement

/-!
# Columns under the spellings of their names

A column is found under its name, under its name in lower case, and under whatever differs from one
of these in the case of ASCII letters. All of them have the same form in lower case, since a text in
lower case stays as it is: mapping a text to a case a second time changes nothing.
-/

namespace TableSchema

open Unicode

theorem NameCase.apply_apply (case : NameCase) (name : String) :
    case.apply (case.apply name) = case.apply name := by
  cases case with
  | declared => rfl
  | lower => exact lowerCase_lowerCase name
  | upper => exact upperCase_upperCase name

namespace ColumnMap

variable {columns : ColumnMap} {column : Column} {name other : String}

/-- Spelled like a name, or like it in lower case, but for the case of ASCII letters. -/
def Respells (other name : String) : Prop :=
  SameString other name ∨ SameString other (lowerCase name)

theorem Respells.lowerCase_eq (h : Respells other name) : lowerCase other = lowerCase name := by
  rcases h with h | h
  · exact h.lowerCase_eq
  · calc lowerCase other = lowerCase (lowerCase name) := h.lowerCase_eq
      _ = lowerCase name := lowerCase_lowerCase name

theorem Valid.get?_name (h : columns.Valid) (hc : column ∈ columns.toList) :
    columns.get? column.name = some column := by
  obtain ⟨entry, he, rfl⟩ := List.mem_map.mp hc
  have hfound := lookup_of_mem h.nodup he
  rwa [h.key_eq entry he] at hfound

theorem get?_modify_self (h : columns.get? name = some column) (f : Column → Column) :
    (columns.modify name f).get? name = some (f column) := by
  rw [get?, keyOf_eq] at h ⊢
  simp [modify, lookup_modifyKey, h]

/-- Mapping names to a case is done once and for all. Every map answers alike under all spellings of
a name: what was inserted under one of them, with the edits made of it since, is found and changed
under each, and in a table that a program can come by that is the column of this name. -/
theorem found_in_any_case :
    (∀ (case : NameCase) (s : String), case.apply (case.apply s) = case.apply s) ∧
    (∀ (columns : ColumnMap) (name other : String), Respells other name →
      columns.get? other = columns.get? name ∧ columns.contains other = columns.contains name ∧
        ∀ f, columns.modify other f = columns.modify name f) ∧
    (∀ (log : List Operation) (column : Column), .insert column ∈ log →
      ∀ other, Respells other column.name →
        (after log).contains other = true ∧
          (after log).get? other = current? log (lowerCase column.name)) ∧
    ∀ table : Table, table.Reachable → ∀ column ∈ table.columns.toList,
      ∀ other, Respells other column.name →
        table.columns.contains other = true ∧ table.columns.get? other = some column ∧
          ∀ f, (table.columns.modify other f).get? column.name = some (f column) := by
  have hsame (columns : ColumnMap) {name other : String} (h : Respells other name) :
      columns.get? other = columns.get? name ∧ columns.contains other = columns.contains name ∧
        ∀ f, columns.modify other f = columns.modify name f := by
    simp [get?, contains, modify, h.lowerCase_eq]
  refine ⟨NameCase.apply_apply, fun columns name other => hsame columns, ?_, ?_⟩
  · intro log column hlog other h
    obtain ⟨hget, -, -⟩ := hsame (after log) h
    have hfound : (after log).get? other = current? log (lowerCase column.name) :=
      hget.trans (lookup_after log _)
    have hinserted : lowerCase column.name ∈ insertedKeys log := by
      simp only [insertedKeys, List.mem_eraseDups, List.mem_map, List.mem_filterMap]
      exact ⟨column, ⟨_, hlog, rfl⟩, rfl⟩
    refine ⟨?_, hfound⟩
    rw [contains, hfound]
    exact (mem_insertedKeys_iff log _).mp hinserted
  · intro table htable column hcolumn other h
    obtain ⟨hget, -, hmodify⟩ := hsame table.columns h
    have hname : table.columns.get? column.name = some column := htable.valid.get?_name hcolumn
    have hfound : table.columns.get? other = some column := hget.trans hname
    refine ⟨by simp [contains, hfound], hfound, fun f => ?_⟩
    rw [hmodify]
    exact get?_modify_self hname f

/-- In lower case the capital I with a dot is an i and a dot, and the last sigma is a final one. -/
theorem found_in_any_case_of_sigma :
    Respells "I\u0307dς" "İDΣ" ∧
      ∃ table column, Table.parse "CREATE TABLE t (a int, `İDΣ` text)" none = .ok table ∧
        column ∈ table.columns.toList ∧ column.name = "İDΣ" ∧
        table.columns.get? "I\u0307dς" = some column := by
  have hspelling : Respells "I\u0307dς" "İDΣ" := .inr (by decide +kernel)
  refine ⟨hspelling, ?_⟩
  have hread : ((Table.parse "CREATE TABLE t (a int, `İDΣ` text)" none).toOption.map fun table =>
      table.columns.toList.map (·.name)) = some ["a", "İDΣ"] := by decide +kernel
  cases h : Table.parse "CREATE TABLE t (a int, `İDΣ` text)" none with
  | error e => rw [h] at hread; cases hread
  | ok table =>
    simp only [h, Except.toOption, Option.map_some, Option.some.injEq] at hread
    have hmem : "İDΣ" ∈ table.columns.toList.map (·.name) := by simp [hread]
    obtain ⟨column, hcolumn, hname⟩ := List.mem_map.mp hmem
    refine ⟨table, column, rfl, hcolumn, hname, ?_⟩
    exact (found_in_any_case.2.2.2 table (.parse h) column hcolumn _ (hname ▸ hspelling)).2.1

end ColumnMap

end TableSchema
