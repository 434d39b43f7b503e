import TableSchema.Proofs.ColumnLog
import TableSchema.Proofs.Invariants

/-!
# What a statement declares

A table's columns and constraints may stand in any order in its statement. Of the definitions of one
name, in any case, the last one counts and stands where the first one stood, and a constraint sets
the flags of the columns that it lists: `Statement.declared`. A statement is refused for the first
listed name that no column has, and else its table is what it declares:
`Table.ofStatement_eq_declared`.
-/

namespace TableSchema

open ColumnMap

-- ---------------------------------------------------------------------------
-- Names in constraints
-- ---------------------------------------------------------------------------

namespace Constraint

/-- The names that a constraint lists, each with the kind of the constraint. -/
def mentions (constraint : Constraint) : List (ConstraintKind × String) :=
  constraint.columns.map (constraint.kind, ·)

/-- A constraint of this kind lists the column of this key. -/
def lists (constraints : List Constraint) (key : String) (kind : ConstraintKind) : Bool :=
  constraints.any fun constraint =>
    constraint.kind = kind && constraint.columns.any fun name => Unicode.lowerCase name = key

variable {constraints : List Constraint}

theorem lists_eq_any_mentions (key : String) (kind : ConstraintKind) :
    lists constraints key kind =
      (constraints.flatMap mentions).any fun mention =>
        mention.1 = kind && Unicode.lowerCase mention.2 = key := by
  rw [List.any_flatMap]
  refine List.any_congr rfl fun constraint => ?_
  rw [mentions, List.any_map]
  cases h : decide (constraint.kind = kind) <;> simp [Function.comp_def, h]

theorem lists_perm {others : List Constraint} (h : others.Perm constraints) :
    lists others = lists constraints :=
  funext fun _ => funext fun _ => h.any_eq

end Constraint

-- ---------------------------------------------------------------------------
-- Flags of columns
-- ---------------------------------------------------------------------------

namespace Column

variable {column : Column} {listed : ConstraintKind → Bool}

/-- A column with the flags of the kinds of constraint that list it. -/
def marked (column : Column) (listed : ConstraintKind → Bool) : Column :=
  { column with
    primaryKey := column.primaryKey || listed .primaryKey
    unique := column.unique || listed .unique
    notNull := column.notNull || listed .primaryKey || listed .notNull }

theorem marked_none : column.marked (fun _ => false) = column := by
  simp [marked]

theorem marked_mark (kind : ConstraintKind) :
    (kind.mark column).marked listed = column.marked fun other => kind = other || listed other := by
  cases kind <;>
    simp [marked, ConstraintKind.mark, setPrimaryKey, setUnique, setNotNull, Bool.or_assoc]

end Column

-- ---------------------------------------------------------------------------
-- Constraints worked into columns
-- ---------------------------------------------------------------------------

namespace ColumnMap

variable {columns : ColumnMap}

/-- The columns with the flags of the constraints that mention them. -/
def marked (columns : ColumnMap) (mentions : List (ConstraintKind × String)) : ColumnMap :=
  ⟨columns.entries.map fun entry =>
    (entry.1, entry.2.marked fun kind =>
      mentions.any fun mention => mention.1 = kind && Unicode.lowerCase mention.2 = entry.1)⟩

theorem marked_nil : columns.marked [] = columns := by
  simp [marked, Column.marked_none]

theorem marked_modify (hn : columns.keys.Nodup) (mention : ConstraintKind × String)
    (mentions : List (ConstraintKind × String)) :
    (columns.modify mention.2 mention.1.mark).marked mentions =
      columns.marked (mention :: mentions) := by
  change marked ⟨modifyKey (Unicode.lowerCase mention.2) mention.1.mark columns.entries⟩ mentions =
    columns.marked (mention :: mentions)
  rw [marked, modifyKey_eq_map hn, List.map_map, marked]
  refine congrArg _ (List.map_congr_left fun entry _ => ?_)
  simp only [Function.comp_apply, List.any_cons]
  split
  next h => simp [Column.marked_mark, h]
  next h => simp [Ne.symm h]

theorem resolve_eq_foldlM (constraints : List Constraint) :
    columns.resolve constraints =
      (constraints.flatMap Constraint.mentions).foldlM
        (fun columns mention => columns.markColumn mention.1 mention.2) columns := by
  induction constraints generalizing columns with
  | nil => rfl
  | cons constraint constraints ih =>
    rw [List.flatMap_cons, List.foldlM_append, Constraint.mentions, List.foldlM_map]
    exact bind_congr fun _ => ih

theorem foldlM_markColumn (hn : columns.keys.Nodup) (mentions : List (ConstraintKind × String)) :
    mentions.foldlM (fun columns mention => columns.markColumn mention.1 mention.2) columns =
      match mentions.find? fun mention => !columns.contains mention.2 with
      | some (kind, name) => .error (.unknownColumn name kind)
      | none => .ok (columns.marked mentions) := by
  induction mentions generalizing columns with
  | nil => exact congrArg Except.ok marked_nil.symm
  | cons mention mentions ih =>
    rw [List.foldlM_cons, List.find?_cons, markColumn]
    cases hc : columns.contains mention.2 with
    | false => rfl
    | true =>
      have hkeys : (columns.modify mention.2 mention.1.mark).keys.Nodup :=
        (keys_modify columns ..).symm ▸ hn
      have hrest := ih hkeys
      simp only [contains_modify, marked_modify hn] at hrest
      exact hrest

/-- Constraints are refused for the first name that no column has, and else set flags. -/
theorem resolve_eq (hn : columns.keys.Nodup) (constraints : List Constraint) :
    columns.resolve constraints =
      match (constraints.flatMap Constraint.mentions).find? fun mention =>
        !columns.contains mention.2 with
      | some (kind, name) => .error (.unknownColumn name kind)
      | none => .ok (columns.marked (constraints.flatMap Constraint.mentions)) := by
  rw [resolve_eq_foldlM, foldlM_markColumn hn]

end ColumnMap

-- ---------------------------------------------------------------------------
-- Declared columns
-- ---------------------------------------------------------------------------

namespace Statement

variable (statement : Statement) (dialect : Option Dialect)

def definitions : List ColumnDefinition := statement.items.filterMap (·.column?)

def constraints : List Constraint := statement.items.filterMap (·.constraint?)

/-- The names that are defined, in lower case, each where it stands first. -/
def keys : List String := (statement.definitions.map fun d => Unicode.lowerCase d.name).eraseDups

/-- The definition that counts for a name is the last one. -/
def definition? (key : String) : Option ColumnDefinition :=
  (statement.definitions.filter fun d => Unicode.lowerCase d.name = key).getLast?

/-- The column that a definition declares among the constraints of its statement: its words and its
attributes as they stand there, and each flag from the definition or from a constraint. There is no
scale without a length, and none that is zero. -/
def columnOf (definition : ColumnDefinition) : Column :=
  let type := definition.type
  let attributes := definition.attributes
  let listed := Constraint.lists statement.constraints (Unicode.lowerCase definition.name)
  let primaryKey := attributes.key == some .primary || listed .primaryKey
  { name := definition.name
    dataType := " ".intercalate (type.words.map Unicode.upperCase)
    length := type.length
    scale := if type.length = none ∨ type.scale = some 0 then none else type.scale
    dimensions := type.dimensions
    notNull := attributes.nullability == some .notNull || primaryKey || listed .notNull
    primaryKey
    unique := attributes.key == some .unique || listed .unique
    unsigned := type.unsigned
    zerofill := type.zerofill
    autoIncrement := attributes.autoIncrement
    distKey := attributes.distKey
    sortKey := attributes.sortKey
    characterSet := attributes.characterSet
    encoding := attributes.encoding
    defaultValue := attributes.defaultValue
    comment := attributes.comment
    dialect := dialect }

def declaredColumns : ColumnMap :=
  ⟨statement.keys.filterMap fun key =>
    (statement.definition? key).map fun d => (key, statement.columnOf dialect d)⟩

/-- The table that a statement declares, whether or not its constraints list its columns only. -/
def declared : Table where
  schema := statement.name.schema
  name := statement.name.name
  temporary := statement.temporary
  columns := statement.declaredColumns dialect
  constraints := statement.constraints
  dialect := dialect

/-- The first name that a constraint lists and no column has, with the kind of the constraint. -/
def unknown? : Option (ConstraintKind × String) :=
  (statement.constraints.flatMap Constraint.mentions).find? fun mention =>
    statement.definitions.all fun d => Unicode.lowerCase d.name ≠ Unicode.lowerCase mention.2

/-- The columns of a statement before its constraints are worked into them. -/
def definedColumns : ColumnMap :=
  .ofList (statement.definitions.map fun d => .ofDefinition d dialect)

theorem keys_definedColumns : (statement.definedColumns dialect).keys = statement.keys := by
  rw [definedColumns, keys_ofList, List.map_map]
  rfl

theorem nodup_definedColumns : (statement.definedColumns dialect).keys.Nodup := by
  refine (Valid.ofList fun column hc => ?_).nodup
  obtain ⟨definition, -, rfl⟩ := List.mem_map.mp hc
  exact Column.valid_ofDefinition definition dialect

theorem lookup_definedColumns (key : String) :
    (statement.definedColumns dialect).entries.lookup key =
      (statement.definition? key).map (Column.ofDefinition · dialect) := by
  rw [definedColumns, lookup_ofList, List.filter_map, List.getLast?_map]
  rfl

theorem contains_definedColumns (name : String) :
    (!(statement.definedColumns dialect).contains name) =
      statement.definitions.all fun d => Unicode.lowerCase d.name ≠ Unicode.lowerCase name := by
  change (!((statement.definedColumns dialect).entries.lookup (Unicode.lowerCase name)).isSome) = _
  rw [lookup_definedColumns, Option.isSome_map, definition?, Bool.eq_iff_iff]
  simp

theorem scale_ofDefinition (definition : ColumnDefinition) :
    (Column.ofDefinition definition dialect).scale =
      if definition.type.length = none ∨ definition.type.scale = some 0 then none
      else definition.type.scale := by
  change (if definition.type.length.isSome then definition.type.scale.filter (· ≠ 0) else none) = _
  cases definition.type.length <;> cases definition.type.scale <;> grind

theorem marked_ofDefinition (definition : ColumnDefinition) :
    (Column.ofDefinition definition dialect).marked
        (Constraint.lists statement.constraints (Unicode.lowerCase definition.name)) =
      statement.columnOf dialect definition := by
  simp only [columnOf, ← scale_ofDefinition dialect]
  simp only [Column.marked, Column.ofDefinition, Column.typeName, Column.mk.injEq, true_and,
    and_true]
  grind

theorem key_of_definition? {key : String} (h : statement.definition? key = some definition) :
    Unicode.lowerCase definition.name = key := by
  have hm := List.mem_of_getLast? h
  simpa using (List.mem_filter.mp hm).2

theorem marked_definedColumns :
    (statement.definedColumns dialect).marked (statement.constraints.flatMap Constraint.mentions) =
      statement.declaredColumns dialect := by
  rw [marked, eq_filterMap_lookup (statement.nodup_definedColumns dialect), List.map_filterMap]
  refine congrArg _ ?_
  change (statement.definedColumns dialect).keys.filterMap _ = _
  rw [keys_definedColumns]
  refine List.filterMap_congr fun key _ => ?_
  rw [lookup_definedColumns]
  cases hd : statement.definition? key with
  | none => rfl
  | some definition =>
    have hk := statement.key_of_definition? hd
    simp only [Option.map_some, ← Constraint.lists_eq_any_mentions]
    rw [← hk, marked_ofDefinition]

-- ---------------------------------------------------------------------------
-- Order of declarations
-- ---------------------------------------------------------------------------

variable {statement} {other : Statement}

theorem declaredColumns_perm (hd : other.definitions = statement.definitions)
    (hc : other.constraints.Perm statement.constraints) :
    other.declaredColumns dialect = statement.declaredColumns dialect := by
  simp only [declaredColumns, keys, definition?, columnOf, hd, Constraint.lists_perm hc]

theorem isSome_unknown?_perm (hd : other.definitions = statement.definitions)
    (hc : other.constraints.Perm statement.constraints) :
    other.unknown?.isSome = statement.unknown?.isSome := by
  simp only [unknown?, hd]
  rw [Bool.eq_iff_iff, List.find?_isSome, List.find?_isSome]
  simp only [(hc.flatMap_right Constraint.mentions).mem_iff]

theorem isSome_unknown?_iff :
    statement.unknown?.isSome = true ↔
      ∃ constraint ∈ statement.constraints, ∃ name ∈ constraint.columns,
        ∀ definition ∈ statement.definitions,
          Unicode.lowerCase definition.name ≠ Unicode.lowerCase name := by
  rw [unknown?, List.find?_isSome]
  constructor
  · rintro ⟨mention, hm, hall⟩
    obtain ⟨constraint, hc, hm⟩ := List.mem_flatMap.mp hm
    obtain ⟨name, hn, rfl⟩ := List.mem_map.mp hm
    exact ⟨constraint, hc, name, hn, by simpa using hall⟩
  · rintro ⟨constraint, hc, name, hn, hall⟩
    have hm : (constraint.kind, name) ∈ constraint.mentions := List.mem_map_of_mem hn
    exact ⟨_, List.mem_flatMap.mpr ⟨constraint, hc, hm⟩, by simpa using hall⟩

end Statement

-- ---------------------------------------------------------------------------
-- Tables
-- ---------------------------------------------------------------------------

namespace Table

variable (statement : Statement) (dialect : Option Dialect)

theorem ofStatement_eq :
    ofStatement statement dialect =
      match statement.unknown? with
      | some (kind, name) => .error (.unknownColumn name kind)
      | none => .ok (statement.declared dialect) := by
  have hresolve := resolve_eq (statement.nodup_definedColumns dialect) statement.constraints
  simp only [Statement.contains_definedColumns, Statement.marked_definedColumns] at hresolve
  change (do let columns ← (statement.definedColumns dialect).resolve statement.constraints; _) = _
  rw [hresolve]
  change _ = match statement.unknown? with | some (kind, name) => _ | none => _
  unfold Statement.unknown?
  split <;> rfl

theorem isError_ofStatement :
    (∃ e, ofStatement statement dialect = .error e) ↔ statement.unknown?.isSome = true := by
  rw [ofStatement_eq]
  cases statement.unknown? <;> simp

theorem columns_ofStatement :
    (ofStatement statement dialect).toOption.map (·.columns) =
      if statement.unknown?.isSome then none else some (statement.declaredColumns dialect) := by
  rw [ofStatement_eq]
  cases statement.unknown? <;> rfl

/-- A statement is refused for the first name in its constraints that no column has, and else its
table is what it declares. In which order columns stand among constraints is all the same, and in
which order the constraints stand is all the same to the columns. -/
theorem ofStatement_eq_declared :
    (ofStatement statement dialect =
      match statement.unknown? with
      | some (kind, name) => .error (.unknownColumn name kind)
      | none => .ok (statement.declared dialect)) ∧
    ((∃ e, ofStatement statement dialect = .error e) ↔
      ∃ constraint ∈ statement.constraints, ∃ name ∈ constraint.columns,
        ∀ definition ∈ statement.definitions,
          Unicode.lowerCase definition.name ≠ Unicode.lowerCase name) ∧
    ∀ other : Statement, other.definitions = statement.definitions →
      (other.name = statement.name → other.temporary = statement.temporary →
        other.constraints = statement.constraints →
          ofStatement other dialect = ofStatement statement dialect) ∧
      (other.constraints.Perm statement.constraints →
        (ofStatement other dialect).toOption.map (·.columns) =
          (ofStatement statement dialect).toOption.map (·.columns)) := by
  refine ⟨ofStatement_eq statement dialect, ?_, fun other hd => ⟨fun hn ht hc => ?_, fun hc => ?_⟩⟩
  · rw [isError_ofStatement, Statement.isSome_unknown?_iff]
  · have hunknown : other.unknown? = statement.unknown? := by
      simp only [Statement.unknown?, hd, hc]
    have hdeclared : other.declared dialect = statement.declared dialect := by
      simp only [Statement.declared, hn, ht, hc,
        Statement.declaredColumns_perm dialect hd (.of_eq hc)]
    rw [ofStatement_eq, ofStatement_eq, hunknown, hdeclared]
  · rw [columns_ofStatement, columns_ofStatement, Statement.isSome_unknown?_perm hd hc,
      Statement.declaredColumns_perm dialect hd hc]

/-- A column that is defined twice, among constraints in one order and in the other. -/
theorem ofStatement_eq_declared_of_twice :
    let column (name type : String) : Item := .column ⟨name, { words := [type] }, {}⟩
    let key : Constraint := { name := none, kind := .primaryKey, columns := ["A"] }
    let unique : Constraint := { name := none, kind := .unique, columns := ["b", "a"] }
    let statement : Statement :=
      ⟨false, ⟨none, "t"⟩,
        [.constraint key, column "a" "int", column "b" "text", .constraint unique,
          column "A" "date"]⟩
    let other : Statement :=
      ⟨false, ⟨none, "t"⟩,
        [column "a" "int", .constraint unique, column "b" "text", column "A" "date",
          .constraint key]⟩
    (ofStatement other none).toOption.map (·.columns) =
      (ofStatement statement none).toOption.map (·.columns) ∧
    (statement.declaredColumns none).toList.map (fun c => (c.name, c.dataType)) =
      [("A", "DATE"), ("b", "TEXT")] ∧
    (statement.declaredColumns none).toList.map (fun c => (c.primaryKey, c.unique, c.notNull)) =
      [(true, true, true), (false, true, false)] := by
  intro column key unique statement other
  have hperm : other.constraints.Perm statement.constraints := .swap key unique []
  exact ⟨((ofStatement_eq_declared statement none).2.2 other rfl).2 hperm, by decide +kernel,
    by decide +kernel⟩

end Table

end TableSchema
