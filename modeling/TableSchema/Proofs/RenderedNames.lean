import Mathlib.Data.List.Nodup
import TableSchema.Proofs.Invariants
import TableSchema.Proofs.LetterCase.Statement
import TableSchema.Proofs.Rendering

/-!
# Names of rendered columns

The columns of a table are told apart by their names in lower case. Their names stay apart when they
are rendered as declared or in lower case. Upper case may make one name of two, as it does of `ς`
and its capital `Σ`, and then two fields have one name; it never does so to names in ASCII.
-/

namespace TableSchema

open BigQuery Unicode

/-- Two columns have names that only upper case makes equal. -/
def ColumnMap.Clash (columns : ColumnMap) : Prop :=
  ∃ a ∈ columns.toList, ∃ b ∈ columns.toList,
    lowerCase a.name ≠ lowerCase b.name ∧ upperCase a.name = upperCase b.name

-- ---------------------------------------------------------------------------
-- Names in ASCII
-- ---------------------------------------------------------------------------

def IsAscii (text : String) : Prop := ∀ c ∈ text.toList, c.toNat < 128

instance (text : String) : Decidable (IsAscii text) := List.decidableBAll _ _

theorem toList_upperCase_ascii {s : String} (h : IsAscii s) :
    (upperCase s).toList = s.toList.map Char.toUpper := by
  have hc : ∀ c ∈ s.toList, upperChar c = [c.toUpper] := fun c hm => upperChar_ascii (h c hm)
  rw [upperCase, String.toList_ofList, upperChars, List.flatMap_congr hc, List.map_eq_flatMap]

/-- Texts in ASCII that upper case makes equal differ in the case of letters at most. -/
theorem sameString_of_upperCase_eq {s t : String} (hs : IsAscii s) (ht : IsAscii t)
    (h : upperCase s = upperCase t) : SameString s t := by
  have hmap : s.toList.map Char.toUpper = t.toList.map Char.toUpper := by
    rw [← toList_upperCase_ascii hs, ← toList_upperCase_ascii ht, h]
  have hupper : List.Forall₂ (fun c d => c.toUpper = d.toUpper) s.toList t.toList := by
    rw [← List.forall₂_map_right_iff, ← List.forall₂_map_left_iff, hmap]
    exact List.forall₂_same.mpr fun _ _ => rfl
  exact hupper.imp fun c d hcd => by rw [SameLetter, ← toLower_toUpper, hcd, toLower_toUpper]

theorem ColumnMap.not_clash_of_ascii {columns : ColumnMap}
    (h : ∀ column ∈ columns.toList, IsAscii column.name) : ¬columns.Clash := by
  rintro ⟨a, ha, b, hb, hlower, hupper⟩
  exact hlower (sameString_of_upperCase_eq (h a ha) (h b hb) hupper).lowerCase_eq

-- ---------------------------------------------------------------------------
-- Names of columns
-- ---------------------------------------------------------------------------

namespace ColumnMap

variable {columns : ColumnMap}

theorem Valid.nodup_lowerCase (h : columns.Valid) :
    (columns.toList.map (lowerCase ·.name)).Nodup := by
  have hkeys : columns.keys = columns.toList.map (lowerCase ·.name) := by
    rw [keys, toList, List.map_map]
    exact List.map_congr_left h.key_eq
  exact hkeys ▸ h.nodup

theorem Valid.nodup_nameIn_iff (h : columns.Valid) (case : NameCase) :
    (columns.toList.map (·.nameIn case)).Nodup ↔ ¬(case = .upper ∧ columns.Clash) := by
  have hlower := h.nodup_lowerCase
  cases case with
  | declared =>
    have hnames : ((columns.toList.map (·.name)).map lowerCase).Nodup := by
      rw [List.map_map]
      exact hlower
    simpa [Column.nameIn, NameCase.apply] using List.Nodup.of_map lowerCase hnames
  | lower => simpa [Column.nameIn, NameCase.apply] using hlower
  | upper =>
    have hlist : columns.toList.Nodup := hlower.of_map
    have hinj {a b : Column} (ha : a ∈ columns.toList) (hb : b ∈ columns.toList)
        (he : lowerCase a.name = lowerCase b.name) : a = b :=
      List.inj_on_of_nodup_map hlower ha hb he
    have hupper : (columns.toList.map (·.nameIn .upper)).Nodup ↔ ∀ a ∈ columns.toList,
        ∀ b ∈ columns.toList, upperCase a.name = upperCase b.name → a = b :=
      List.nodup_map_iff_inj_on hlist
    rw [hupper]
    constructor
    · rintro hunique ⟨-, a, ha, b, hb, hne, he⟩
      rw [hunique a ha b hb he] at hne
      exact hne rfl
    · intro hclash a ha b hb he
      by_contra hab
      exact hclash ⟨rfl, a, ha, b, hb, fun hl => hab (hinj ha hb hl), he⟩

end ColumnMap

-- ---------------------------------------------------------------------------
-- Names of fields
-- ---------------------------------------------------------------------------

namespace Table

variable {table : Table} {case : NameCase} {fields : List Field}

theorem names_of_fields (h : table.fields case = .ok fields) :
    fields.map (·.name) = table.columns.toList.map (·.nameIn case) := by
  have hnames : List.Forall₂ (fun column field => column.nameIn case = Field.name field)
      table.columns.toList fields :=
    (forall₂_of_mapM_eq_ok h).imp fun _ _ hf => (Column.name_of_field hf).symm
  rw [eq_comm, ← List.forall₂_eq_eq_eq, List.forall₂_map_left_iff, List.forall₂_map_right_iff]
  exact hnames

theorem ddl_of_fields (h : table.fields case = .ok fields) :
    table.ddl case = .ok (table.statementOf case fields) := by
  obtain ⟨other, hf, hd⟩ := ddl_eq_statementOf (exists_fields_iff.mp ⟨fields, h⟩) case
  rw [h] at hf
  cases hf
  exact hd

/-- The fields of a table that was read, and with them the lines of its statement, have distinct
names, unless names are in upper case and this makes two names equal. It does not in ASCII. -/
theorem nodup_names_iff {text : String} {dialect : Option Dialect}
    (h : parse text dialect = .ok table) (hf : table.fields case = .ok fields) :
    table.ddl case = .ok (table.statementOf case fields) ∧
      ((fields.map (·.name)).Nodup ↔ ¬(case = .upper ∧ table.columns.Clash)) ∧
      ((∀ column ∈ table.columns.toList, IsAscii column.name) → (fields.map (·.name)).Nodup) := by
  have hnames : (fields.map (·.name)).Nodup ↔ ¬(case = .upper ∧ table.columns.Clash) := by
    rw [names_of_fields hf]
    exact (valid_parse h).nodup_nameIn_iff case
  refine ⟨ddl_of_fields hf, hnames, fun hascii => hnames.mpr ?_⟩
  rintro ⟨-, hclash⟩
  exact ColumnMap.not_clash_of_ascii hascii hclash

theorem nodup_names_of_ascii :
    ∃ table fields, parse "CREATE TABLE t (a int, B text)" none = .ok table ∧
      table.fields .upper = .ok fields ∧ (fields.map (·.name)).Nodup := by
  have hread : ((parse "CREATE TABLE t (a int, B text)" none).toOption.map fun table =>
      ((table.fields .upper).isOk, table.columns.toList.map (·.name))) =
        some (true, ["a", "B"]) := by decide +kernel
  have hascii : ∀ name ∈ ["a", "B"], IsAscii name := by decide +kernel
  cases h : parse "CREATE TABLE t (a int, B text)" none with
  | error e => rw [h] at hread; cases hread
  | ok table =>
    simp only [h, Except.toOption, Option.map_some, Option.some.injEq, Prod.mk.injEq] at hread
    obtain ⟨hok, hnames⟩ := hread
    cases hf : table.fields .upper with
    | error e => rw [hf] at hok; cases hok
    | ok fields =>
      refine ⟨table, fields, rfl, hf, (nodup_names_iff h hf).2.2 fun column hc => ?_⟩
      apply hascii
      rw [← hnames]
      exact List.mem_map_of_mem hc

/-- A capital sigma on its own goes to `σ` in lower case, so that it is another column than `ς`, and
both go to the capital. -/
theorem names_of_sigmas :
    ((parse "CREATE TABLE t (ς int, Σ text)" none >>= (·.fields .upper)).toOption.map fun fields =>
        fields.map (·.name)) = some ["Σ", "Σ"] ∧
      (parse "CREATE TABLE t (ς int, Σ text)" none >>= (·.ddl .upper)).toOption =
        some ("#standardSQL\nCREATE TABLE `project.dataset.T`\n(\n" ++
          "  Σ INT64,\n  Σ STRING\n)") := by
  decide +kernel

end Table

end TableSchema
