import TableSchema.Document

/-!
# Command line arguments

Options take a value, which may follow in the same argument or be the next one; flags take none and
may be joined. Each may be given once. Everything else is the name of a file, and so is all that
stands behind `--`. The first thing that is wrong, or that asks for the version or for help,
decides.
-/

namespace TableSchema.CommandLine

structure Options where
  files : List String := []
  dialect : Option Dialect := none
  format : Format := .table
  nameCase : NameCase := .declared
  output : Option String := none
  compact : Bool := false
  quiet : Bool := false
  verbose : Bool := false
  deriving DecidableEq, Repr

inductive Valued where
  | dialect
  | format
  | nameCase
  | output
  deriving DecidableEq, Repr

inductive Flag where
  | compact
  | quiet
  | verbose
  deriving DecidableEq, Repr

inductive Switch where
  | valued (option : Valued)
  | flag (flag : Flag)
  | help
  | version
  deriving DecidableEq, Repr

inductive UsageError where
  | unknown (argument : String)
  | missingValue (option : Valued)
  | invalidValue (option : Valued) (value : String)
  | unexpectedValue (argument : String)
  | repeated (switch : Switch)
  | emptyFileName
  deriving DecidableEq, Repr

/-- What a list of arguments asks for. -/
inductive Invocation where
  | convert (options : Options)
  | help
  | version
  deriving DecidableEq, Repr

def Switch.ofLong? : String → Option Switch
  | "dialect" => some (valued .dialect)
  | "format" => some (valued .format)
  | "name-case" => some (valued .nameCase)
  | "output" => some (valued .output)
  | "compact" => some (flag .compact)
  | "quiet" => some (flag .quiet)
  | "verbose" => some (flag .verbose)
  | "help" => some help
  | "version" => some version
  | _ => none

def Switch.ofShort? : Char → Option Switch
  | 'd' => some (valued .dialect)
  | 'f' => some (valued .format)
  | 'n' => some (valued .nameCase)
  | 'o' => some (valued .output)
  | 'c' => some (flag .compact)
  | 'q' => some (flag .quiet)
  | 'v' => some (flag .verbose)
  | 'h' => some help
  | 'V' => some version
  | _ => none

def formatOfWord? : String → Option Format
  | "table" => some .table
  | "fields" => some .fields
  | "ddl" => some .ddl
  | "json" => some .json
  | _ => none

/-- The dialect of a word. Generic SQL is a choice here, and PostgreSQL goes by its short name. -/
def dialectOfWord? : String → Option (Option Dialect)
  | "generic" => some none
  | "mysql" => some (some .mysql)
  | "postgres" => some (some .postgresql)
  | "oracle" => some (some .oracle)
  | "redshift" => some (some .redshift)
  | _ => none

/-- What has been read so far, and the switches that it came from. -/
structure Draft where
  options : Options := {}
  given : List Switch := []

namespace Draft

def mark (draft : Draft) (switch : Switch) : Except UsageError Draft :=
  if switch ∈ draft.given then .error (.repeated switch)
  else .ok { draft with given := switch :: draft.given }

def setOption (options : Options) : Valued → String → Option Options
  | .dialect, value => (dialectOfWord? value).map fun dialect => { options with dialect }
  | .format, value => (formatOfWord? value).map fun format => { options with format }
  | .nameCase, value => (NameCase.ofWord? value).map fun nameCase => { options with nameCase }
  | .output, value => if value = "" then none else some { options with output := some value }

def assign (draft : Draft) (option : Valued) (value : String) : Except UsageError Draft := do
  let draft ← draft.mark (.valued option)
  match setOption draft.options option value with
  | some options => return { draft with options }
  | none => .error (.invalidValue option value)

def setFlag (options : Options) : Flag → Options
  | .compact => { options with compact := true }
  | .quiet => { options with quiet := true }
  | .verbose => { options with verbose := true }

def raise (draft : Draft) (flag : Flag) : Except UsageError Draft := do
  let draft ← draft.mark (.flag flag)
  return { draft with options := setFlag draft.options flag }

def addFile (draft : Draft) (name : String) : Except UsageError Draft :=
  if name = "" then .error .emptyFileName
  else .ok { draft with options := { draft.options with files := draft.options.files ++ [name] } }

/-- How an argument with switches ends. -/
inductive Next where
  | more (draft : Draft)
  /-- The value of an option is the next argument. -/
  | value (draft : Draft) (option : Valued)
  | stop (invocation : Invocation)

/-- Reads the letters behind a single hyphen. -/
def readShort (draft : Draft) : List Char → Except UsageError Next
  | [] => .ok (.more draft)
  | c :: rest =>
    match Switch.ofShort? c with
    | none => .error (.unknown (String.ofList ['-', c]))
    | some .help => .ok (.stop .help)
    | some .version => .ok (.stop .version)
    | some (.flag flag) => do readShort (← draft.raise flag) rest
    | some (.valued option) =>
      match rest with
      | [] => .ok (.value draft option)
      | '=' :: value => .more <$> draft.assign option (String.ofList value)
      | value => .more <$> draft.assign option (String.ofList value)

/-- Reads a word behind two hyphens, with the value that an equals sign may join to it. -/
def readLong (draft : Draft) (word : List Char) : Except UsageError Next :=
  let name := word.takeWhile (· != '=')
  let value := match word.dropWhile (· != '=') with
    | _ :: value => some (String.ofList value)
    | [] => none
  match Switch.ofLong? (String.ofList name), value with
  | none, _ => .error (.unknown (String.ofList ('-' :: '-' :: name)))
  | some (.valued option), some value => .more <$> draft.assign option value
  | some (.valued option), none => .ok (.value draft option)
  | some _, some _ => .error (.unexpectedValue (String.ofList ('-' :: '-' :: name)))
  | some (.flag flag), none => .more <$> draft.raise flag
  | some .help, none => .ok (.stop .help)
  | some .version, none => .ok (.stop .version)

def readSwitches (draft : Draft) : List Char → Except UsageError Next
  | '-' :: '-' :: word => draft.readLong word
  | '-' :: letters => draft.readShort letters
  | name => .more <$> draft.addFile (String.ofList name)

end Draft

/-- Whether an argument is a switch. A lone hyphen is not. -/
def isSwitch (argument : String) : Bool := argument.toList.head? == some '-' && argument != "-"

/-- Reads arguments from left to right, the first of them the value of `pending` if there is one. -/
def readArguments (draft : Draft) (pending : Option Valued) :
    List String → Except UsageError Invocation
  | [] =>
    match pending with
    | some option => .error (.missingValue option)
    | none => .ok (.convert draft.options)
  | argument :: rest =>
    match pending with
    | some option =>
      if isSwitch argument then .error (.missingValue option)
      else do readArguments (← draft.assign option argument) none rest
    | none =>
      if argument = "--" then do
        let draft ← rest.foldlM Draft.addFile draft
        return .convert draft.options
      else if isSwitch argument then do
        match ← draft.readSwitches argument.toList with
        | .more draft => readArguments draft none rest
        | .value draft option => readArguments draft (some option) rest
        | .stop invocation => return invocation
      else do readArguments (← draft.addFile argument) none rest

def Invocation.ofArguments (arguments : List String) : Except UsageError Invocation :=
  readArguments {} none arguments

/-! ## Messages -/

def Switch.text : Switch → String
  | valued .dialect => "--dialect <DIALECT>"
  | valued .format => "--format <FORMAT>"
  | valued .nameCase => "--name-case <NAME_CASE>"
  | valued .output => "--output <FILE>"
  | flag .compact => "--compact"
  | flag .quiet => "--quiet"
  | flag .verbose => "--verbose"
  | help => "--help"
  | version => "--version"

def UsageError.message : UsageError → String
  | unknown argument => "error: unexpected argument '" ++ argument ++ "' found"
  | missingValue option =>
    "error: a value is required for '" ++ (Switch.valued option).text ++ "' but none was supplied"
  | invalidValue option value =>
    "error: invalid value '" ++ value ++ "' for '" ++ (Switch.valued option).text ++ "'"
  | unexpectedValue argument => "error: unexpected value for '" ++ argument ++ "'"
  | repeated switch =>
    "error: the argument '" ++ switch.text ++ "' cannot be used multiple times"
  | emptyFileName => "error: a value is required for '[FILES]...' but none was supplied"

end TableSchema.CommandLine
