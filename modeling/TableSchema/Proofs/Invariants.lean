import TableSchema.BigQuery.Ddl
import TableSchema.Proofs.ColumnMapLaws

/-!
# What changes of a table keep

Columns come from their constructors and setters and from tables; a table is read from a text and
then gets columns, has columns changed where they stand, or changes its dialect. Whatever is done,
and however often, the columns stay valid and stand under their names, and only adding a column
changes a name or a type: `reachable_valid`.
-/

namespace TableSchema

-- ---------------------------------------------------------------------------
-- Invariants
-- ---------------------------------------------------------------------------

structure Column.Valid (column : Column) : Prop where
  notNull_of_primaryKey : column.primaryKey = true → column.notNull = true
  scale_pos : ∀ scale, column.scale = some scale → 0 < scale
  length_of_scale : ∀ scale, column.scale = some scale → ∃ length, column.length = some length

structure ColumnMap.Valid (columns : ColumnMap) : Prop where
  nodup : columns.keys.Nodup
  key_eq : ∀ entry ∈ columns.entries, entry.1 = Unicode.lowerCase entry.2.name
  valid : ∀ entry ∈ columns.entries, entry.2.Valid

/-- The name and the type of the column under a key. -/
def ColumnMap.declared? (columns : ColumnMap) (key : String) : Option (String × String) :=
  (columns.entries.lookup key).map fun column => (column.name, column.dataType)

-- ---------------------------------------------------------------------------
-- Changes of tables
-- ---------------------------------------------------------------------------

/-- A change of a table: a column more, one changed where it stands, or another dialect. -/
inductive Table.Change where
  | insert (column : Column)
  | edit (name : String) (edit : Column.Edit)
  | dialect (value : Option Dialect)

def Table.change (table : Table) : Change → Table
  | .insert column => { table with columns := (table.columns.insert column).2 }
  | .edit name edit => { table with columns := table.columns.modify name (·.edit edit) }
  | .dialect value => table.withDialect value

mutual

/-- The columns that a program can come by. -/
inductive Column.Reachable : Column → Prop
  | new (name dataType : String) : Column.Reachable (.new name dataType)
  | withLength (h : Column.Reachable column) (length : Length) (scale : Option Nat) :
      Column.Reachable (column.withLength length scale)
  | withDimensions (h : Column.Reachable column) (dimensions : Nat) :
      Column.Reachable (column.withDimensions dimensions)
  | withDialect (h : Column.Reachable column) (dialect : Option Dialect) :
      Column.Reachable (column.withDialect dialect)
  | edit (h : Column.Reachable column) (edit : Column.Edit) : Column.Reachable (column.edit edit)
  | ofTable (h : Table.Reachable table) (hc : column ∈ table.columns.toList) :
      Column.Reachable column

/-- The tables that a program can come by. -/
inductive Table.Reachable : Table → Prop
  | parse (h : Table.parse text dialect = .ok table) : Table.Reachable table
  | insert (h : Table.Reachable table) (hc : Column.Reachable column) :
      Table.Reachable (table.change (.insert column))
  | edit (h : Table.Reachable table) (name : String) (edit : Column.Edit) :
      Table.Reachable (table.change (.edit name edit))
  | dialect (h : Table.Reachable table) (value : Option Dialect) :
      Table.Reachable (table.change (.dialect value))

end

-- ---------------------------------------------------------------------------
-- Columns
-- ---------------------------------------------------------------------------

namespace Column

theorem valid_of_no_scale (hk : column.primaryKey = true → column.notNull = true)
    (hs : column.scale = none) : Valid column :=
  ⟨hk, by simp [hs], by simp [hs]⟩

/-- A scale of zero is no scale. -/
theorem pos_of_filter {given : Option Nat} {scale : Nat}
    (h : given.filter (· ≠ 0) = some scale) : 0 < scale := by
  rw [Option.filter_eq_some_iff] at h
  exact Nat.pos_of_ne_zero (of_decide_eq_true h.2)

theorem valid_new (name dataType : String) : (new name dataType).Valid :=
  valid_of_no_scale (by simp [new]) rfl

theorem valid_ofDefinition (definition : ColumnDefinition) (dialect : Option Dialect) :
    (ofDefinition definition dialect).Valid where
  notNull_of_primaryKey := by simp +contextual [ofDefinition]
  scale_pos := by
    intro scale hs
    simp only [ofDefinition, Option.ite_none_right_eq_some] at hs
    exact pos_of_filter hs.2
  length_of_scale := by
    intro scale hs
    simp only [ofDefinition, Option.ite_none_right_eq_some] at hs
    exact Option.isSome_iff_exists.mp hs.1

namespace Valid

variable {column : Column}

theorem withLength (h : column.Valid) (length : Length) (scale : Option Nat) :
    (column.withLength length scale).Valid where
  notNull_of_primaryKey := h.notNull_of_primaryKey
  scale_pos := fun _ hs => pos_of_filter hs
  length_of_scale := fun _ _ => ⟨length, rfl⟩

/-- Setters of the flags bear on nothing but the flags. -/
theorem of_flags {changed : Column} (h : column.Valid)
    (hk : changed.primaryKey = true → changed.notNull = true) (hs : changed.scale = column.scale)
    (hl : changed.length = column.length) : changed.Valid :=
  ⟨hk, hs ▸ h.scale_pos, hs ▸ hl ▸ h.length_of_scale⟩

theorem edit (h : column.Valid) (edit : Edit) : (column.edit edit).Valid := by
  refine h.of_flags ?_ (by cases edit <;> rfl) (by cases edit <;> rfl)
  cases edit with
  | notNull value => simp [Column.edit, setNotNull]
  | primaryKey value => simp +contextual [Column.edit, setPrimaryKey]
  | constraint text => simp +contextual [Column.edit, setConstraint]
  | unique | comment | dialect => exact h.notNull_of_primaryKey

theorem mark (h : column.Valid) (kind : ConstraintKind) : (kind.mark column).Valid := by
  cases kind with
  | primaryKey => exact h.edit (.primaryKey true)
  | unique => exact h.edit (.unique true)
  | notNull => exact h.edit (.notNull true)
  | foreignKey => exact h

end Valid

theorem name_edit (column : Column) (edit : Edit) : (column.edit edit).name = column.name := by
  cases edit <;> rfl

theorem dataType_edit (column : Column) (edit : Edit) :
    (column.edit edit).dataType = column.dataType := by
  cases edit <;> rfl

theorem name_mark (kind : ConstraintKind) (column : Column) :
    (kind.mark column).name = column.name := by
  cases kind <;> rfl

theorem mode_eq_repeated (column : Column) : column.mode = .repeated ↔ 0 < column.dimensions := by
  unfold mode BigQuery.Mode.ofColumn
  grind

theorem mode_eq_required (column : Column) :
    column.mode = .required ↔ column.dimensions = 0 ∧ column.notNull = true := by
  unfold mode BigQuery.Mode.ofColumn
  grind

theorem field_eq_ok {column : Column} {case : NameCase} {field : BigQuery.Field}
    (h : column.field case = .ok field) :
    ∃ type, column.fieldType = .ok type ∧ column.fieldOf case type = field := by
  unfold Column.field at h
  cases ht : column.fieldType with
  | error e => rw [ht] at h; cases h
  | ok type =>
    rw [ht] at h
    exact ⟨type, rfl, Except.ok.inj h⟩

theorem mode_of_field {column : Column} {case : NameCase} {field : BigQuery.Field}
    (h : column.field case = .ok field) : field.mode = column.mode := by
  obtain ⟨type, -, rfl⟩ := field_eq_ok h
  unfold fieldOf
  split <;> rfl

theorem name_of_field {column : Column} {case : NameCase} {field : BigQuery.Field}
    (h : column.field case = .ok field) : field.name = column.nameIn case := by
  obtain ⟨type, -, rfl⟩ := field_eq_ok h
  unfold fieldOf
  split <;> rfl

end Column

-- ---------------------------------------------------------------------------
-- Columns of a table
-- ---------------------------------------------------------------------------

namespace ColumnMap

namespace Valid

variable {columns : ColumnMap}

theorem empty : Valid {} := ⟨.nil, by simp, by simp⟩

theorem insert (h : columns.Valid) (hc : column.Valid) : (columns.insert column).2.Valid where
  nodup := nodup_keys_put h.nodup
  key_eq := by
    rintro entry he
    rcases mem_put he with rfl | he
    · rfl
    · exact h.key_eq entry he
  valid := by
    rintro entry he
    rcases mem_put he with rfl | he
    · exact hc
    · exact h.valid entry he

theorem modify (h : columns.Valid) (name : String) {f : Column → Column}
    (hn : ∀ c, (f c).name = c.name) (hf : ∀ c : Column, c.Valid → (f c).Valid) :
    (columns.modify name f).Valid where
  nodup := by
    show ((modifyKey _ f columns.entries).map (·.1)).Nodup
    rw [map_modifyKey (f := f) (g := (·.1)) fun _ _ => rfl]
    exact h.nodup
  key_eq := by
    rintro entry he
    rcases mem_modifyKey he with he | ⟨c, hc, rfl⟩
    · exact h.key_eq entry he
    · simpa [hn] using h.key_eq _ hc
  valid := by
    rintro entry he
    rcases mem_modifyKey he with he | ⟨c, hc, rfl⟩
    · exact h.valid entry he
    · exact hf c (h.valid _ hc)

theorem map (h : columns.Valid) {f : Column → Column} (hn : ∀ c, (f c).name = c.name)
    (hf : ∀ c : Column, c.Valid → (f c).Valid) : (columns.map f).Valid where
  nodup := by simpa [keys, ColumnMap.map, Function.comp_def] using h.nodup
  key_eq := by
    simp only [ColumnMap.map, List.mem_map]
    rintro _ ⟨entry, he, rfl⟩
    simpa [hn] using h.key_eq entry he
  valid := by
    simp only [ColumnMap.map, List.mem_map]
    rintro _ ⟨entry, he, rfl⟩
    exact hf _ (h.valid entry he)

theorem ofList {list : List Column} (h : ∀ c ∈ list, c.Valid) : (ofList list).Valid := by
  suffices ∀ start : ColumnMap, start.Valid → (list.foldl add start).Valid from this {} empty
  induction list with
  | nil => exact fun _ hs => hs
  | cons c list ih =>
    intro start hs
    rw [List.forall_mem_cons] at h
    exact ih h.2 _ (hs.insert h.1)

theorem resolve {constraints : List Constraint} (h : columns.Valid)
    (hr : columns.resolve constraints = .ok resolved) : resolved.Valid := by
  refine foldlM_invariant (P := Valid) (fun a constraint b ha hb => ?_) h hr
  refine foldlM_invariant (P := Valid) (fun a name b ha hb => ?_) ha hb
  unfold markColumn at hb
  split at hb
  · cases hb
    exact ha.modify name (Column.name_mark _) fun _ hc => hc.mark _
  · cases hb

theorem of_mem (h : columns.Valid) (hc : column ∈ columns.toList) : column.Valid := by
  obtain ⟨entry, he, rfl⟩ := List.mem_map.mp hc
  exact h.valid entry he

end Valid

end ColumnMap

-- ---------------------------------------------------------------------------
-- Tables
-- ---------------------------------------------------------------------------

namespace Table

variable {table : Table} {dialect : Option Dialect}

theorem valid_ofStatement (h : ofStatement statement dialect = .ok table) :
    table.columns.Valid := by
  simp only [ofStatement, bind, Except.bind] at h
  split at h
  · cases h
  next columns hr =>
    cases h
    refine ColumnMap.Valid.resolve (ColumnMap.Valid.ofList ?_) hr
    simp only [List.mem_map]
    rintro _ ⟨definition, -, rfl⟩
    exact Column.valid_ofDefinition definition dialect

theorem valid_parse (h : parse text dialect = .ok table) : table.columns.Valid := by
  unfold parse at h
  split at h
  · cases h
  split at h
  · cases h
  · exact valid_ofStatement h

end Table

mutual

theorem Column.Reachable.valid {column : Column} : column.Reachable → column.Valid
  | .new name dataType => Column.valid_new name dataType
  | .withLength h length scale => h.valid.withLength length scale
  | .withDimensions h _ => h.valid.of_flags h.valid.notNull_of_primaryKey rfl rfl
  | .withDialect h _ => h.valid.of_flags h.valid.notNull_of_primaryKey rfl rfl
  | .edit h edit => h.valid.edit edit
  | .ofTable h hc => h.valid.of_mem hc

theorem Table.Reachable.valid {table : Table} : table.Reachable → table.columns.Valid
  | .parse h => Table.valid_parse h
  | .insert h hc => h.valid.insert hc.valid
  | .edit h name edit =>
    h.valid.modify name (fun c => c.name_edit edit) fun _ hc => hc.edit edit
  | .dialect h value =>
    h.valid.map (f := (·.withDialect value)) (fun _ => rfl) fun _ hc => hc.edit (.dialect value)

end

namespace Table

/-- Only a new column of that name changes what is declared under a key. -/
theorem declared?_change (table : Table) (change : Change) {key : String}
    (h : ∀ column, change = .insert column → Unicode.lowerCase column.name ≠ key) :
    (table.change change).columns.declared? key = table.columns.declared? key := by
  cases change with
  | insert column =>
    have hk : key ≠ Unicode.lowerCase column.name := (h column rfl).symm
    simp [Table.change, ColumnMap.insert, ColumnMap.declared?, ColumnMap.lookup_put, hk]
  | edit name edit =>
    simp only [Table.change, ColumnMap.modify, ColumnMap.declared?, ColumnMap.lookup_modifyKey]
    split
    · simp [Function.comp_def, Column.name_edit, Column.dataType_edit]
    · rfl
  | dialect value =>
    simp [Table.change, Table.withDialect, ColumnMap.declared?, ColumnMap.lookup_entries_map,
      Function.comp_def, Column.withDialect]

theorem declared?_changes (table : Table) (changes : List Change) {key : String}
    (h : ∀ column, .insert column ∈ changes → Unicode.lowerCase column.name ≠ key) :
    (changes.foldl change table).columns.declared? key = table.columns.declared? key := by
  induction changes generalizing table with
  | nil => rfl
  | cons first rest ih =>
    have hfirst : ∀ column, first = .insert column → Unicode.lowerCase column.name ≠ key :=
      fun column hc => h column (hc ▸ List.mem_cons_self ..)
    rw [List.foldl_cons, ih _ fun column hc => h column (List.mem_cons_of_mem _ hc),
      declared?_change table first hfirst]

end Table

/-- Whatever a program does, its columns and tables are valid, scalar keys are required in both
renderings, and only a new column of that name changes what is declared under a key. -/
theorem reachable_valid :
    (∀ column : Column, column.Reachable →
      column.Valid ∧
      (column.mode = .repeated ↔ 0 < column.dimensions) ∧
      (column.mode = .required ↔ column.dimensions = 0 ∧ column.notNull = true) ∧
      (column.primaryKey = true → column.dimensions = 0 →
        (∀ case field, column.field case = .ok field → field.mode = .required) ∧
          ∀ element, column.sqlType element = element ++ " NOT NULL")) ∧
    ∀ table : Table, table.Reachable →
      table.columns.Valid ∧
      ∀ (changes : List Table.Change) (key : String),
        (∀ column, .insert column ∈ changes → Unicode.lowerCase column.name ≠ key) →
        (changes.foldl Table.change table).columns.declared? key =
          table.columns.declared? key := by
  constructor
  · intro column h
    refine ⟨h.valid, column.mode_eq_repeated, column.mode_eq_required, fun hk hd => ?_⟩
    have hn : column.notNull = true := h.valid.notNull_of_primaryKey hk
    refine ⟨fun case field hf => ?_, fun element => by simp [Column.sqlType, hd, hn]⟩
    rw [Column.mode_of_field hf, column.mode_eq_required]
    exact ⟨hd, hn⟩
  · intro table h
    exact ⟨h.valid, fun changes key hc => table.declared?_changes changes hc⟩

theorem reachable_valid_of_insert :
    ∃ table, Table.parse "CREATE TABLE t (a int, b date, PRIMARY KEY (B))" none = .ok table ∧
      (table.change (.insert (.new "A" "text"))).columns.Valid ∧
      (table.change (.insert (.new "A" "text"))).columns.declared? "b" =
        table.columns.declared? "b" := by
  cases h : Table.parse "CREATE TABLE t (a int, b date, PRIMARY KEY (B))" none with
  | error e =>
    have hok : (Table.parse "CREATE TABLE t (a int, b date, PRIMARY KEY (B))" none).isOk = true := by
      decide +kernel
    simp [h, Except.isOk, Except.toBool] at hok
  | ok table =>
    have ht : table.Reachable := .parse h
    have hkey : Unicode.lowerCase "A" ≠ "b" := by decide +kernel
    refine ⟨table, rfl, (reachable_valid.2 _ (ht.insert (.new "A" "text"))).1, ?_⟩
    refine (reachable_valid.2 table ht).2 [.insert (.new "A" "text")] "b" fun column hc => ?_
    rw [List.mem_singleton, Table.Change.insert.injEq] at hc
    exact hc ▸ hkey

end TableSchema
