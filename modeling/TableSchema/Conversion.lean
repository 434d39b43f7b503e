import TableSchema.BigQuery.Ddl
import TableSchema.Table.Json
import TableSchema.Json.Record

/-!
# Conversions

A request carries a text with its dialect and says what to render; its result is the table with the
rendered text. Requests can be written in JSON.
-/

namespace TableSchema

/-- What a conversion renders. -/
inductive OutputKind where
  | fields
  | ddl
  deriving DecidableEq, Repr

namespace OutputKind

def word : OutputKind → String
  | fields => "fields"
  | ddl => "ddl"

def ofWord? : String → Option OutputKind
  | "fields" => some fields
  | "ddl" => some ddl
  | _ => none

end OutputKind

def Table.render (table : Table) (output : OutputKind) (case : NameCase) : Except Error String :=
  match output with
  | .fields => (BigQuery.schemaJson · |>.compact) <$> table.fields case
  | .ddl => table.ddl case

namespace Conversion

structure Options where
  nameCase : NameCase := .declared
  output : OutputKind := .fields
  deriving DecidableEq, Repr

structure Request where
  ddl : String
  dialect : Option Dialect := none
  options : Options := {}
  deriving DecidableEq, Repr

structure Result where
  table : Table
  output : String

def convert (request : Request) : Except Error Result := do
  let table ← Table.parse request.ddl request.dialect
  let output ← table.render request.options.output request.options.nameCase
  return { table, output }

namespace Options

def toJson (options : Options) : Json :=
  .object [("nameCase", .string options.nameCase.word), ("output", .string options.output.word)]

/-- Reads a word that may be missing. -/
def choice? (ofWord? : String → Option α) (default : α) : Option Json → Option α
  | none => some default
  | some json => json.word? >>= ofWord?

def ofJson? (json : Json) : Option Options := do
  let [nameCase, output] ← json.fields? ["nameCase", "output"] | none
  let nameCase ← choice? NameCase.ofWord? .declared nameCase
  let output ← choice? OutputKind.ofWord? .fields output
  return { nameCase, output }

end Options

namespace Request

def toJson (request : Request) : Json :=
  .object ([("ddl", .string request.ddl)] ++
    Json.member? "dialect" (request.dialect.map (.string ·.name)) ++
    [("options", request.options.toJson)])

/-- A dialect that may be missing or null. -/
def dialect? : Option Json → Option (Option Dialect)
  | none | some .null => some none
  | some json => some <$> (json.word? >>= Dialect.ofName?)

def ofJson? (json : Json) : Option Request := do
  let [some ddl, dialect, options] ← json.fields? ["ddl", "dialect", "options"] | none
  let ddl ← ddl.string?
  let dialect ← dialect? dialect
  let options ← match options with
    | some options => Options.ofJson? options
    | none => some {}
  return { ddl, dialect, options }

end Request

def Result.toJson (result : Result) : Json :=
  .object [("table", result.table.toJson), ("output", .string result.output)]

end Conversion

end TableSchema
