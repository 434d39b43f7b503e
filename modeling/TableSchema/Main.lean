import TableSchema.CommandLine.Run

/-!
# The program

The command line against the files and streams of the operating system.
-/

open TableSchema CommandLine

/-- The description and the number of a failure. -/
def systemError : IO.Error → SystemError
  | .noFileOrDirectory _ number text | .inappropriateType (some _) number text
  | .permissionDenied _ number text | .invalidArgument _ number text
  | .resourceExhausted _ number text | .alreadyExists _ number text
  | .interrupted _ number text => ⟨text, number.toNat⟩
  | .inappropriateType none number text | .otherError number text
  | .resourceBusy number text | .resourceVanished number text | .hardwareFault number text
  | .illegalOperation number text | .protocolError number text | .timeExpired number text
  | .unsatisfiedConstraints number text | .unsupportedOperation number text
  | .noSuchThing _ number text => ⟨text, number.toNat⟩
  | .unexpectedEof => ⟨"Unexpected end of file", 0⟩
  | .userError text => ⟨text, 0⟩

def attempt (action : IO α) : IO (Except SystemError α) := do
  match ← action.toBaseIO with
  | .ok a => return .ok a
  | .error e => return .error (systemError e)

def operatingSystem : Host IO where
  readFile path := attempt (IO.FS.readBinFile path)
  readInput := attempt do (← IO.getStdin).readBinToEnd
  writeFile path content := attempt (IO.FS.writeFile path content)

def main (arguments : List String) : IO UInt32 := do
  let outcome ← run operatingSystem arguments
  (← IO.getStderr).putStr outcome.stderr
  (← IO.getStdout).putStr outcome.stdout
  return outcome.code.toUInt32
