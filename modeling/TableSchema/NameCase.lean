import TableSchema.Unicode.Case

/-!
# Case of rendered names

Names keep the case in which they were declared, or all go to lower or upper case.
-/

namespace TableSchema

inductive NameCase where
  | declared
  | lower
  | upper
  deriving DecidableEq, Repr

namespace NameCase

def apply (case : NameCase) (name : String) : String :=
  match case with
  | declared => name
  | lower => Unicode.lowerCase name
  | upper => Unicode.upperCase name

def word : NameCase → String
  | declared => "original"
  | lower => "lower"
  | upper => "upper"

def ofWord? : String → Option NameCase
  | "original" => some declared
  | "lower" => some lower
  | "upper" => some upper
  | _ => none

theorem ofWord?_word (case : NameCase) : ofWord? case.word = some case := by cases case <;> rfl

end NameCase

end TableSchema
