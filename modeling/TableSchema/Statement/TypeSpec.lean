import TableSchema.Length
import TableSchema.Token

/-!
# Type clauses

The type of a column: a word, the words that extend it, a length and scale, flags and array
brackets. Parentheses that hold anything but a length are left for the item to skip.
-/

namespace TableSchema

structure TypeSpec where
  /-- The words of the type's name; those that extend the first one are in capital letters. -/
  words : List String
  length : Option Length := none
  scale : Option Nat := none
  unsigned : Bool := false
  zerofill : Bool := false
  dimensions : Nat := 0
  deriving DecidableEq, Repr

namespace TypeSpec

open Rule

/-- The runs of words that extend the name of a type. -/
def modifiers : List (List String) := [
  ["WITHOUT", "TIME", "ZONE"],
  ["WITH", "LOCAL", "TIME", "ZONE"],
  ["WITH", "TIME", "ZONE"],
  ["PRECISION"],
  ["VARYING"]]

def modifier : Rule (List String) :=
  firstOf (modifiers.map fun words => keywords words *> pure words)

theorem consumes_modifier : modifier.Consumes := by
  apply consumes_firstOf
  simp only [modifiers, List.map_cons, List.map_nil, List.forall_mem_cons, List.not_mem_nil,
    false_imp_iff, implies_true, and_true]
  exact ⟨(consumes_keywords (by decide)).seqRight, (consumes_keywords (by decide)).seqRight,
    (consumes_keywords (by decide)).seqRight, (consumes_keywords (by decide)).seqRight,
    (consumes_keywords (by decide)).seqRight⟩

/-- Extends the name of a type by the modifiers that follow. -/
def extend (words : List String) : Rule (List String) :=
  iterate (fun words => (words ++ ·) <$> modifier) (fun _ => consumes_modifier.map _) words

/-- A length with an optional scale: `(n)`, `(n, s)`, `(*)` or `(*, s)`, and `CHAR` or `BYTE` after
it where lengths are counted in either. -/
def lengthGroup : Rule (Length × Option Nat) := do
  symbol "("
  let length ← (symbol "*" *> pure .any) <|> (.value <$> number)
  let scale ← ifPresent (symbol ",") (option number) (pure none)
  let _ ← present (anyKeyword ["CHAR", "BYTE"])
  symbol ")"
  return (length, scale)

/-- Words may extend the name of a type behind its length too. -/
def extendBehind (group : Option (Length × Option Nat)) (words : List String) :
    Rule (List String) :=
  if group.isSome then extend words else pure words

/-- The flags `UNSIGNED` and `ZEROFILL`, each at most once. -/
def flag (type : TypeSpec) : Rule TypeSpec :=
  (if type.unsigned then never else keyword "UNSIGNED" *> pure { type with unsigned := true }) <|>
    (if type.zerofill then never else keyword "ZEROFILL" *> pure { type with zerofill := true })

theorem consumes_flag (type : TypeSpec) : (flag type).Consumes := by
  apply Consumes.orElse
  · split
    · exact consumes_never
    · exact (consumes_keyword (by decide)).seqRight
  · split
    · exact consumes_never
    · exact (consumes_keyword (by decide)).seqRight

/-- One array dimension, its size optional. -/
def bracket : Rule Unit := do
  symbol "["
  let _ ← option number
  symbol "]"

theorem consumes_bracket : bracket.Consumes := (consumes_symbol (by decide)).bind

def brackets : Rule Nat :=
  iterate (fun n => (fun _ => n + 1) <$> bracket) (fun _ => consumes_bracket.map _) 0

def rule : Rule TypeSpec := do
  let first ← word
  let words ← extend [first]
  let group ← option lengthGroup
  let words ← extendBehind group words
  let type ← iterate flag consumes_flag
    { words, length := group.map (·.1), scale := group.bind (·.2) }
  let dimensions ← brackets
  return { type with dimensions }

theorem consumes_rule : rule.Consumes := consumes_word.bind

end TypeSpec

end TableSchema
