import TableSchema.Statement.Value

/-!
# Attributes of columns

The clauses behind a column's type come in any order. The first clause of each kind counts; text
that no kind claims is skipped up to the end of the item.
-/

namespace TableSchema

inductive Nullability where
  | notNull
  | null
  deriving DecidableEq, Repr

inductive KeyMarker where
  | primary
  | unique
  deriving DecidableEq, Repr

structure ColumnAttributes where
  nullability : Option Nullability := none
  autoIncrement : Bool := false
  key : Option KeyMarker := none
  defaultValue : Option String := none
  comment : Option String := none
  encoding : Option String := none
  distKey : Bool := false
  sortKey : Bool := false
  characterSet : Option String := none
  deriving DecidableEq, Repr

/-- One attribute clause. -/
inductive Attribute where
  | nullability (value : Nullability)
  | autoIncrement
  | key (marker : KeyMarker)
  | defaultValue (text : String)
  | comment (text : String)
  | encoding (name : String)
  | distKey
  | sortKey
  | characterSet (name : String)
  deriving DecidableEq, Repr

namespace Attribute

inductive Kind where
  | nullability
  | autoIncrement
  | key
  | defaultValue
  | comment
  | encoding
  | distKey
  | sortKey
  | characterSet
  deriving DecidableEq, Repr

def kind : Attribute → Kind
  | nullability _ => .nullability
  | autoIncrement => .autoIncrement
  | key _ => .key
  | defaultValue _ => .defaultValue
  | comment _ => .comment
  | encoding _ => .encoding
  | distKey => .distKey
  | sortKey => .sortKey
  | characterSet _ => .characterSet

open Rule

/-- The kinds in the order in which they are tried. -/
def Kind.all : List Kind :=
  [.nullability, .autoIncrement, .key, .defaultValue, .comment, .encoding, .distKey, .sortKey,
    .characterSet]

/-- Reads a clause of a kind. -/
def rule : Kind → Rule Attribute
  | .nullability =>
    keywords ["NOT", "NULL"] *> pure (nullability .notNull) <|>
      keyword "NULL" *> pure (nullability .null)
  | .autoIncrement => anyKeyword ["AUTO_INCREMENT", "AUTOINCREMENT"] *> pure autoIncrement
  | .key =>
    (keyword "PRIMARY" *> pure (key .primary) <|> keyword "UNIQUE" *> pure (key .unique)) <*
      present (keyword "KEY")
  | .defaultValue => keyword "DEFAULT" *> defaultValue <$> Value.rule
  | .comment => keyword "COMMENT" *> comment <$> Value.rule
  | .encoding => keyword "ENCODE" *> encoding <$> word
  | .distKey => keyword "DISTKEY" *> pure distKey
  | .sortKey => keyword "SORTKEY" *> pure sortKey
  | .characterSet => do
    keywords ["CHARACTER", "SET"] <|> keyword "CHARSET"
    let _ ← present (symbol "=")
    characterSet <$> identifier []

theorem consumes_rule (kind : Kind) : (rule kind).Consumes := by
  cases kind with
  | nullability =>
    exact (consumes_keywords (by decide)).seqRight.orElse (consumes_keyword (by decide)).seqRight
  | autoIncrement =>
    refine Consumes.seqRight (consumes_firstOf fun p hp => ?_)
    obtain ⟨w, hw, rfl⟩ := List.mem_map.mp hp
    rcases List.mem_cons.mp hw with rfl | hw
    · exact consumes_keyword (by decide)
    · obtain rfl := List.mem_singleton.mp hw
      exact consumes_keyword (by decide)
  | key =>
    exact ((consumes_keyword (by decide)).seqRight.orElse
      (consumes_keyword (by decide)).seqRight).seqLeft
  | defaultValue | comment | encoding | distKey | sortKey =>
    exact (consumes_keyword (by decide)).seqRight
  | characterSet =>
    exact ((consumes_keywords (by decide)).orElse (consumes_keyword (by decide))).bind

end Attribute

namespace ColumnAttributes

/-- Records a clause. An empty comment is no comment. -/
def record (attributes : ColumnAttributes) : Attribute → ColumnAttributes
  | .nullability value => { attributes with nullability := some value }
  | .autoIncrement => { attributes with autoIncrement := true }
  | .key marker => { attributes with key := some marker }
  | .defaultValue text => { attributes with defaultValue := some text }
  | .comment text => { attributes with comment := if text = "" then none else some text }
  | .encoding name => { attributes with encoding := some name }
  | .distKey => { attributes with distKey := true }
  | .sortKey => { attributes with sortKey := true }
  | .characterSet name => { attributes with characterSet := some name }

/-- Attributes read so far and the kinds that may still come. -/
structure Progress where
  attributes : ColumnAttributes := {}
  pending : List Attribute.Kind := Attribute.Kind.all

open Rule

/-- Records the first open kind that matches, which closes it. -/
def clause (progress : Progress) : Rule Progress :=
  (fun a => ⟨progress.attributes.record a, progress.pending.erase a.kind⟩) <$>
    firstOf (progress.pending.map Attribute.rule)

def clauseOrUnclaimed (progress : Progress) : Rule Progress :=
  clause progress <|> unclaimed *> pure progress

theorem consumes_clauseOrUnclaimed (progress : Progress) :
    (clauseOrUnclaimed progress).Consumes := by
  refine Consumes.orElse (Consumes.map _ (consumes_firstOf fun p hp => ?_))
    consumes_unclaimed.seqRight
  obtain ⟨kind, _, rfl⟩ := List.mem_map.mp hp
  exact Attribute.consumes_rule kind

/-- All attributes up to the end of the item. -/
def rule : Rule ColumnAttributes :=
  (·.attributes) <$> iterate clauseOrUnclaimed consumes_clauseOrUnclaimed {}

end ColumnAttributes

end TableSchema
