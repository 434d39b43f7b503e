import TableSchema.Statement.TypeSpec

/-!
# Values of column attributes

A value with casts is kept as written, quotes included. Otherwise a literal gives its contents and
anything else is kept as written.
-/

namespace TableSchema.Value

open Rule

def cast : Rule Unit := symbol "::" *> (fun _ => ()) <$> TypeSpec.rule

theorem consumes_cast : cast.Consumes := (consumes_symbol (by decide)).seqRight

/-- What a cast applies to. -/
def operand : Rule String := literal '\'' <|> literal '"' <|> bare true

/-- An operand with one or more casts. -/
def castExpression : Rule Unit := do
  let _ ← operand
  cast
  iterate (fun _ => cast) (fun _ => consumes_cast) ()

def rule : Rule String :=
  String.ofList <$> source castExpression <|> literal '\'' <|> literal '"' <|> bare false

end TableSchema.Value
