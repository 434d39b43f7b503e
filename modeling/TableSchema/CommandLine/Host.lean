/-!
# What a run reads and writes

The files and the input that a run of the command line meets, as operations that may fail. A failure
carries the description and the number that the operating system gives it.
-/

namespace TableSchema.CommandLine

structure SystemError where
  description : String
  number : Nat
  deriving DecidableEq, Repr

namespace SystemError

def message (e : SystemError) : String :=
  e.description ++ " (os error " ++ toString e.number ++ ")"

def notFound : SystemError := ⟨"No such file or directory", 2⟩
def notDirectory : SystemError := ⟨"Not a directory", 20⟩
def isDirectory : SystemError := ⟨"Is a directory", 21⟩
def nameTooLong : SystemError := ⟨"File name too long", 36⟩
def noSpace : SystemError := ⟨"No space left on device", 28⟩

end SystemError

structure Host (m : Type → Type) where
  readFile : String → m (Except SystemError ByteArray)
  readInput : m (Except SystemError ByteArray)
  /-- Puts a text into the file of a path. When this fails the file may be emptied or cut. -/
  writeFile : String → String → m (Except SystemError Unit)

end TableSchema.CommandLine
