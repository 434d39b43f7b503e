import TableSchema.CommandLine.Arguments
import TableSchema.CommandLine.Host

/-!
# Runs of the command line

A run reads all of its sources, converts those that can be read as tables, and writes one document.
A source that is no table is reported and left out; one that cannot be read ends the run, and so
does a document that cannot be written. A summary that cannot be padded aborts it.

What `--verbose` logs is left out, and the output and the error stream take all that they are given.
Of the report of an abort only the message is kept, not the thread and the place that it names.
-/

namespace TableSchema.CommandLine

structure Outcome where
  code : Nat
  stdout : String := ""
  stderr : String := ""
  deriving DecidableEq, Repr

/-- A source was left out, or the document could not be made. -/
def exitFailure : Nat := 1
def exitUsage : Nat := 2
/-- A file or the input could not be read or written. -/
def exitInputOutput : Nat := 66
def exitAborted : Nat := 101

def errorLine (message : String) : String := "ddlscope: error: " ++ message ++ "\n"

def versionText : String := "ddlscope 0.2.0\n"

def helpText : String :=
  "Convert CREATE TABLE statements to BigQuery schemas\n\n" ++
  "Usage: ddlscope [OPTIONS] [FILES]...\n\n" ++
  "Arguments:\n" ++
  "  [FILES]...  DDL files to convert, one CREATE TABLE each (`-` or none reads stdin)\n\n" ++
  "Options:\n" ++
  "  -d, --dialect <DIALECT>      Source SQL dialect [default: generic] " ++
  "[possible values: generic, mysql, postgres, oracle, redshift]\n" ++
  "  -f, --format <FORMAT>        Output format [default: table] " ++
  "[possible values: table, fields, ddl, json]\n" ++
  "  -n, --name-case <NAME_CASE>  Case transform for schema, table and column names " ++
  "[default: original] [possible values: original, lower, upper]\n" ++
  "  -o, --output <FILE>          Output file (defaults to stdout)\n" ++
  "  -c, --compact                Compact JSON output (no pretty-printing)\n" ++
  "  -q, --quiet                  Suppress warnings on stderr\n" ++
  "  -v, --verbose                Log parser events to stderr\n" ++
  "  -h, --help                   Print help\n" ++
  "  -V, --version                Print version\n"

/-! ## Sources -/

/-- Where a source comes from. -/
inductive Origin where
  | file (name : String)
  | input
  deriving DecidableEq, Repr

namespace Origin

def name : Origin → String
  | file name => name
  | input => "<stdin>"

/-- The origins that file names stand for. A hyphen stands for the input, which is read once; so do
no names at all. -/
def ofFiles (files : List String) : List Origin :=
  if files.isEmpty then [input]
  else
    let origins := files.map fun name => if name = "-" then input else file name
    origins.foldl (fun kept origin =>
      if origin = input ∧ input ∈ kept then kept else kept ++ [origin]) []

end Origin

structure Source where
  name : String
  content : String
  deriving DecidableEq, Repr

inductive ReadError where
  | system (e : SystemError)
  | notUtf8
  deriving DecidableEq, Repr

def ReadError.message : ReadError → String
  | system e => e.message
  | notUtf8 => "stream did not contain valid UTF-8"

/-- Leaves out one byte order mark at the start. -/
def withoutMark (text : String) : String :=
  match text.toList with
  | '\ufeff' :: rest => String.ofList rest
  | _ => text

def Source.ofBytes (name : String) (read : Except SystemError ByteArray) :
    Except ReadError Source :=
  match read with
  | .error e => .error (.system e)
  | .ok bytes =>
    match String.fromUTF8? bytes with
    | some text => .ok ⟨name, withoutMark text⟩
    | none => .error .notUtf8

def Origin.readFailure (origin : Origin) (e : ReadError) : String :=
  match origin with
  | file name => "Failed to read file: " ++ name ++ ": " ++ e.message
  | input => "Failed to read from stdin: " ++ e.message

/-- The table of a source, or what is reported of it. -/
def Source.table (source : Source) (dialect : Option Dialect) : Except String SourcedTable :=
  match Table.parse source.content dialect with
  | .ok table => .ok ⟨source.name, table⟩
  | .error .missingInput =>
    .error (source.name ++ ": no CREATE TABLE statement (input is empty)")
  | .error e => .error (source.name ++ ": " ++ e.message)

inductive Product where
  | nothing
  | document (text : String)
  | abort (message : String)
  deriving DecidableEq, Repr

/-- What a run makes of its sources, before anything is written. -/
structure Conversion where
  /-- What is reported of the sources, line by line. -/
  reports : List String
  product : Product

/-- Converts sources. There is no document if no source is a table, or if a column has no type that
the document asks for, which is then reported. -/
def convert (options : Options) (sources : List Source) : Conversion :=
  let results := sources.map (·.table options.dialect)
  let reports := results.filterMap fun
    | .error report => some report
    | .ok _ => none
  let tables := results.filterMap (·.toOption)
  if tables.isEmpty then { reports, product := .nothing }
  else
    match Document.render tables options.format options.nameCase options.quiet options.compact with
    | .ok document => { reports, product := .document document }
    | .error (.unmapped e) => { reports := reports ++ [e.message], product := .nothing }
    | .error (.tooWide e) => { reports, product := .abort e.message }

/-- A document on the output ends its last line. -/
def endLine (document : String) : String :=
  if document.toList.getLast? = some '\n' then document else document ++ "\n"

/-! ## Runs -/

section

variable {m : Type → Type} [Monad m] (host : Host m)

def Origin.read (origin : Origin) : m (Except ReadError Source) :=
  match origin with
  | file name => Source.ofBytes name <$> host.readFile name
  | input => Source.ofBytes origin.name <$> host.readInput

/-- Reads sources in order, up to the first that fails. -/
def readAll : List Origin → m (Except String (List Source))
  | [] => return .ok []
  | origin :: rest => do
    match ← origin.read host with
    | .error e => return .error (origin.readFailure e)
    | .ok source =>
      match ← readAll rest with
      | .error report => return .error report
      | .ok sources => return .ok (source :: sources)

def runConvert (options : Options) : m Outcome := do
  match ← readAll host (Origin.ofFiles options.files) with
  | .error report => return { code := exitInputOutput, stderr := errorLine report }
  | .ok sources =>
    let conversion := convert options sources
    let stderr := String.join (conversion.reports.map errorLine)
    let code := if conversion.reports.isEmpty then 0 else exitFailure
    match conversion.product, options.output with
    | .nothing, _ => return { code, stderr }
    | .abort message, _ => return { code := exitAborted, stderr := stderr ++ message ++ "\n" }
    | .document document, none => return { code, stdout := endLine document, stderr }
    | .document document, some path =>
      match ← host.writeFile path document with
      | .ok () => return { code, stderr }
      | .error e => return {
          code := exitInputOutput
          stderr := stderr ++ errorLine ("Failed to write to " ++ path ++ ": " ++ e.message) }

/-- A run with the given arguments. -/
def run (arguments : List String) : m Outcome :=
  match Invocation.ofArguments arguments with
  | .error e => return { code := exitUsage, stderr := e.message ++ "\n" }
  | .ok .help => return { code := 0, stdout := helpText }
  | .ok .version => return { code := 0, stdout := versionText }
  | .ok (.convert options) => runConvert host options

end

end TableSchema.CommandLine
