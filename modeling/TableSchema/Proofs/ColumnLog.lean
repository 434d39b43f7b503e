import Mathlib.Data.List.DropRight
import Mathlib.Data.List.Induction
import TableSchema.Proofs.ColumnMapLaws

/-!
# Columns as a log of operations

What a map of columns holds after any run of insertions and edits, read off the log of them alone: a
column for each key that was inserted, in the order in which the keys came, and of each key the last
column inserted with the edits made since. An edit may be any change of a column, its name included;
the column stays under the key that it was inserted under. A map made of a list of columns is one of
these: the log of their insertions.
-/

namespace TableSchema.ColumnMap

/-- A column added, or the column of a name changed where it stands. -/
inductive Operation where
  | insert (column : Column)
  | edit (name : String) (change : Column → Column)

namespace Operation

/-- The key under which an operation works. -/
def key : Operation → String
  | insert column => Unicode.lowerCase column.name
  | edit name _ => Unicode.lowerCase name

def inserted? : Operation → Option Column
  | insert column => some column
  | edit .. => none

/-- What an operation makes of the column that stands under its key. -/
def change : Operation → Column → Column
  | insert column => fun _ => column
  | edit _ f => f

@[simp] theorem key_insert : (insert column).key = Unicode.lowerCase column.name := rfl
@[simp] theorem key_edit : (edit name f).key = Unicode.lowerCase name := rfl
@[simp] theorem inserted?_insert : (insert column).inserted? = some column := rfl
@[simp] theorem inserted?_edit : (edit name f).inserted? = none := rfl
@[simp] theorem change_insert : (insert column).change = fun _ => column := rfl
@[simp] theorem change_edit : (edit name f).change = f := rfl

end Operation

def apply (columns : ColumnMap) : Operation → ColumnMap
  | .insert column => (columns.insert column).2
  | .edit name change => columns.modify name change

/-- What an empty map comes to. -/
def after (log : List Operation) : ColumnMap := log.foldl apply {}

/-- The keys under which columns were inserted, in the order in which they came. -/
def insertedKeys (log : List Operation) : List String :=
  ((log.filterMap (·.inserted?)).map fun column => Unicode.lowerCase column.name).eraseDups

/-- The last column inserted under a key with the edits made of it since. -/
def current? (log : List Operation) (key : String) : Option Column :=
  let under := log.filter (·.key = key)
  let edits := under.rtakeWhile (·.inserted?.isNone)
  (under.filterMap (·.inserted?)).getLast?.map fun column =>
    edits.foldl (fun column edit => edit.change column) column

-- ---------------------------------------------------------------------------
-- One operation
-- ---------------------------------------------------------------------------

/-- An operation changes the entry of its key and no other; without that entry it adds one at the
end or does nothing. -/
theorem entries_apply {columns : ColumnMap} (h : columns.keys.Nodup) (op : Operation) :
    (columns.apply op).entries =
      if op.key ∈ columns.keys then
        columns.entries.map fun entry =>
          (entry.1, if entry.1 = op.key then op.change entry.2 else entry.2)
      else columns.entries ++ (op.inserted?.map (op.key, ·)).toList := by
  cases op with
  | insert column =>
    show put (Unicode.lowerCase column.name) column columns.entries = _
    rw [put_eq, modifyKey_eq_map h]
    rfl
  | edit name f =>
    show modifyKey (Unicode.lowerCase name) f columns.entries = _
    split
    next => exact modifyKey_eq_map h
    next hn => simpa using modifyKey_of_notMem (f := f) hn

theorem keys_apply (columns : ColumnMap) (op : Operation) :
    (columns.apply op).keys =
      if op.key ∈ columns.keys then columns.keys
      else columns.keys ++ (op.inserted?.map fun _ => op.key).toList := by
  cases op with
  | insert column => exact keys_put
  | edit name f =>
    refine (keys_modify columns name f).trans ?_
    simp

theorem nodup_apply {columns : ColumnMap} (h : columns.keys.Nodup) (op : Operation) :
    (columns.apply op).keys.Nodup := by
  cases op with
  | insert column => exact nodup_keys_put h
  | edit name f => exact (keys_modify columns name f).symm ▸ h

theorem lookup_apply (columns : ColumnMap) (op : Operation) (key : String) :
    (columns.apply op).entries.lookup key =
      if op.key = key then op.inserted?.or ((columns.entries.lookup key).map op.change)
      else columns.entries.lookup key := by
  cases op with
  | insert column =>
    show (put (Unicode.lowerCase column.name) column columns.entries).lookup key = _
    rw [lookup_put]
    simp [eq_comm]
  | edit name f =>
    show (modifyKey (Unicode.lowerCase name) f columns.entries).lookup key = _
    rw [lookup_modifyKey]
    simp [eq_comm]

-- ---------------------------------------------------------------------------
-- Runs
-- ---------------------------------------------------------------------------

theorem after_concat (log : List Operation) (op : Operation) :
    after (log ++ [op]) = (after log).apply op := by
  simp [after]

theorem insertedKeys_concat (log : List Operation) (op : Operation) :
    insertedKeys (log ++ [op]) =
      if op.key ∈ insertedKeys log then insertedKeys log
      else insertedKeys log ++ (op.inserted?.map fun _ => op.key).toList := by
  cases op with
  | insert column =>
    rw [insertedKeys, List.filterMap_append, List.map_append]
    refine (eraseDups_concat _ (Unicode.lowerCase column.name)).trans ?_
    simp only [← List.mem_eraseDups (l := List.map _ _)]
    rfl
  | edit name f =>
    have hsame : insertedKeys (log ++ [.edit name f]) = insertedKeys log := by
      simp [insertedKeys, List.filterMap_cons]
    simp [hsame]

theorem current?_concat (log : List Operation) (op : Operation) (key : String) :
    current? (log ++ [op]) key =
      if op.key = key then op.inserted?.or ((current? log key).map op.change)
      else current? log key := by
  by_cases hk : op.key = key
  · cases op with
    | insert column => simp_all [current?]
    | edit name f =>
      simp_all [current?, List.filterMap_cons, List.rtakeWhile_concat, Function.comp_def]
  · simp [current?, hk]

theorem nodup_after (log : List Operation) : (after log).keys.Nodup := by
  induction log using List.reverseRecOn with
  | nil => exact List.nodup_nil
  | append_singleton log op ih => exact after_concat log op ▸ nodup_apply ih op

theorem keys_after (log : List Operation) : (after log).keys = insertedKeys log := by
  induction log using List.reverseRecOn with
  | nil => rfl
  | append_singleton log op ih => rw [after_concat, keys_apply, insertedKeys_concat, ih]

theorem lookup_after (log : List Operation) (key : String) :
    (after log).entries.lookup key = current? log key := by
  induction log using List.reverseRecOn with
  | nil => rfl
  | append_singleton log op ih => rw [after_concat, lookup_apply, current?_concat, ih]

theorem mem_insertedKeys_iff (log : List Operation) (key : String) :
    key ∈ insertedKeys log ↔ (current? log key).isSome = true := by
  rw [← keys_after, ← lookup_after]
  exact mem_keys_iff

theorem toList_after (log : List Operation) :
    (after log).toList.map some = (insertedKeys log).map (current? log) := by
  rw [← keys_after, toList, keys, List.map_map, List.map_map]
  refine List.map_congr_left fun entry he => ?_
  have hentry := lookup_of_mem (nodup_after log) he
  rw [lookup_after] at hentry
  exact hentry.symm

-- ---------------------------------------------------------------------------
-- What a map answers
-- ---------------------------------------------------------------------------

/-- After every run a map answers as its log does, in the order in which the keys were first
inserted, and one operation more touches the entry of its own key at most. -/
theorem after_refines (log : List Operation) :
    (after log).keys = insertedKeys log ∧ (after log).keys.Nodup ∧
    (after log).toList.map some = (insertedKeys log).map (current? log) ∧
    (after log).size = (insertedKeys log).length ∧
    (∀ name, (after log).get? name = current? log (Unicode.lowerCase name) ∧
      ((after log).contains name = true ↔ Unicode.lowerCase name ∈ insertedKeys log)) ∧
    (∀ column, ((after log).insert column).1 = current? log (Unicode.lowerCase column.name) ∧
      (((after log).insert column).1 = none ↔ Unicode.lowerCase column.name ∉ insertedKeys log)) ∧
    ∀ op : Operation, ((after log).apply op).entries =
      if op.key ∈ insertedKeys log then
        (after log).entries.map fun entry =>
          (entry.1, if entry.1 = op.key then op.change entry.2 else entry.2)
      else (after log).entries ++ (op.inserted?.map (op.key, ·)).toList := by
  have hget (name : String) : (after log).get? name = current? log (Unicode.lowerCase name) :=
    lookup_after log (Unicode.lowerCase name)
  refine ⟨keys_after log, nodup_after log, toList_after log, ?_, fun name => ⟨hget name, ?_⟩,
    fun column => ⟨hget column.name, ?_⟩, fun op => ?_⟩
  · simp [← keys_after, size, keys]
  · rw [mem_insertedKeys_iff, contains, hget]
  · rw [mem_insertedKeys_iff, ← hget, Option.not_isSome_iff_eq_none]
    rfl
  · rw [← keys_after]
    exact entries_apply (nodup_after log) op

/-- The place is that of the first column of a name, in any case, and the column itself the last. -/
theorem after_refines_of_cases :
    let log : List Operation := [.insert (.new "Id" "int"), .insert (.new "b" "text"),
      .edit "B" (·.setNotNull true), .insert (.new "ID" "bigint")]
    (after log).toList.map some =
      [some (.new "ID" "bigint"), some ((Column.new "b" "text").setNotNull true)] ∧
    (after log).get? "iD" = some (.new "ID" "bigint") := by
  intro log
  obtain ⟨-, -, hcolumns, -, hfound, -⟩ := after_refines log
  exact ⟨hcolumns.trans (by decide +kernel), (hfound "iD").1.trans (by decide +kernel)⟩

-- ---------------------------------------------------------------------------
-- Columns added in order
-- ---------------------------------------------------------------------------

theorem ofList_eq_after (list : List Column) : ofList list = after (list.map .insert) := by
  rw [after, List.foldl_map]
  rfl

theorem keys_ofList (list : List Column) :
    (ofList list).keys = (list.map fun c => Unicode.lowerCase c.name).eraseDups := by
  rw [ofList_eq_after, keys_after, insertedKeys]
  simp [List.filterMap_map, Function.comp_def]

/-- Of the columns of one name the last one is found. -/
theorem lookup_ofList (list : List Column) (key : String) :
    (ofList list).entries.lookup key =
      (list.filter fun c => Unicode.lowerCase c.name = key).getLast? := by
  have hunder : (list.map Operation.insert).filter (·.key = key) =
      (list.filter fun c => Unicode.lowerCase c.name = key).map .insert := List.filter_map
  have hedits (l : List Column) :
      (l.map Operation.insert).rtakeWhile (·.inserted?.isNone) = [] := by
    rcases List.eq_nil_or_concat l with rfl | ⟨l, column, rfl⟩ <;> simp
  rw [ofList_eq_after, lookup_after, current?, hunder, hedits]
  simp [List.filterMap_map, Function.comp_def]

end TableSchema.ColumnMap
