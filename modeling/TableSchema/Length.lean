/-!
# Declared lengths

The length or precision in parentheses behind a type name. Oracle writes `*` for any precision.
-/

namespace TableSchema

inductive Length where
  | value (n : Nat)
  | any
  deriving DecidableEq, Repr

namespace Length

def text : Length → String
  | value n => toString n
  | any => "*"

def value? : Length → Option Nat
  | value n => some n
  | any => none

end Length

end TableSchema
