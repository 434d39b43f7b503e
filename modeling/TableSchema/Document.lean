import TableSchema.BigQuery.Ddl
import TableSchema.Summary
import TableSchema.Table.Json

/-!
# Documents

What several tables are rendered to: summaries, models in JSON, field lists, or statements. Field
lists and statements need a BigQuery type for every column, and summaries columns that can be
padded.
-/

namespace TableSchema

inductive Format where
  | table
  | fields
  | ddl
  | json
  deriving DecidableEq, Repr

/-- A source whose table could not be rendered. -/
structure MapError where
  source : String
  cause : Error
  deriving DecidableEq, Repr

def MapError.message (e : MapError) : String :=
  "Failed to map " ++ e.source ++ ": " ++ e.cause.message

namespace Document

/-- Why there is no document. -/
inductive Failure where
  | unmapped (e : MapError)
  | tooWide (e : Summary.WidthError)
  deriving DecidableEq, Repr

def sourcedJson (sourced : SourcedTable) : Json :=
  .object [("source", .string sourced.source), ("table", sourced.table.toJson)]

/-- The models of tables. A single one stands alone, several stand in an array. -/
def json (tables : List SourcedTable) (compactly : Bool) : String :=
  match tables with
  | [single] => (sourcedJson single).render compactly
  | many => (Json.array (many.map sourcedJson)).render compactly

/-- Renders each table, naming the source of the first that cannot be. -/
def renderEach (render : Table → Except Error String) (tables : List SourcedTable) :
    Except MapError (List String) :=
  tables.mapM fun sourced => (render sourced.table).mapError (⟨sourced.source, ·⟩)

/-- One field list for each table, each beginning a line. -/
def fields (tables : List SourcedTable) (case : NameCase) (compactly : Bool) :
    Except MapError String :=
  "\n".intercalate <$>
    renderEach (fun table => (BigQuery.schemaJson · |>.render compactly) <$> table.fields case)
      tables

/-- One statement for each table, an empty line between them. -/
def ddl (tables : List SourcedTable) (case : NameCase) : Except MapError String :=
  "\n\n".intercalate <$> renderEach (·.ddl case) tables

def render (tables : List SourcedTable) (format : Format) (case : NameCase)
    (quiet compactly : Bool) : Except Failure String :=
  match format with
  | .table => (summary tables case quiet).mapError .tooWide
  | .json => .ok (json tables compactly)
  | .fields => (fields tables case compactly).mapError .unmapped
  | .ddl => (ddl tables case).mapError .unmapped

end Document

end TableSchema
