/-!
# JSON values

Values whose objects keep the order of their members, and their two texts: the compact one on a
single line, and the indented one with a line for every item and member. Text escapes quotes,
backslashes and control characters and keeps everything else as it is.
-/

namespace TableSchema

inductive Json where
  | null
  | bool (value : Bool)
  /-- The number `mantissa` with its last `places` digits behind the point. -/
  | number (mantissa : Int) (places : Nat)
  | string (text : String)
  | array (items : List Json)
  | object (members : List (String × Json))
  deriving Inhabited

namespace Json

def nat (n : Nat) : Json := number n 0

/-- A member of an object, unless there is no value. -/
def member? (key : String) : Option Json → List (String × Json)
  | some value => [(key, value)]
  | none => []

def hexDigit (n : Nat) : Char := if n < 10 then Char.ofNat (48 + n) else Char.ofNat (87 + n)

/-- How a character is written in a text. -/
def escape (c : Char) : List Char :=
  match c with
  | '"' => ['\\', '"']
  | '\\' => ['\\', '\\']
  | '\x08' => ['\\', 'b']
  | '\t' => ['\\', 't']
  | '\n' => ['\\', 'n']
  | '\x0c' => ['\\', 'f']
  | '\r' => ['\\', 'r']
  | c =>
    if c.toNat < 32 then
      ['\\', 'u', '0', '0', hexDigit (c.toNat / 16), hexDigit (c.toNat % 16)]
    else [c]

def quote (text : String) : String :=
  String.ofList ('"' :: text.toList.flatMap escape ++ ['"'])

/-- Decimal notation with at least one digit before the point. -/
def numberText (mantissa : Int) (places : Nat) : String :=
  let digits := (toString mantissa.natAbs).toList
  let digits := List.replicate (places + 1 - digits.length) '0' ++ digits
  let whole := digits.take (digits.length - places)
  let fraction := digits.drop (digits.length - places)
  String.ofList ((if mantissa < 0 then ['-'] else []) ++ whole ++
    if fraction.isEmpty then [] else '.' :: fraction)

mutual

def compact : Json → String
  | null => "null"
  | bool true => "true"
  | bool false => "false"
  | number mantissa places => numberText mantissa places
  | string text => quote text
  | array items => "[" ++ compactItems items ++ "]"
  | object members => "\x7b" ++ compactMembers members ++ "\x7d"

def compactItems : List Json → String
  | [] => ""
  | [item] => item.compact
  | item :: rest => item.compact ++ "," ++ compactItems rest

def compactMembers : List (String × Json) → String
  | [] => ""
  | [(key, value)] => quote key ++ ":" ++ value.compact
  | (key, value) :: rest => quote key ++ ":" ++ value.compact ++ "," ++ compactMembers rest

end

/-- The start of a line that is `depth` levels deep. -/
def indent (depth : Nat) : String := "\n" ++ String.ofList (List.replicate (2 * depth) ' ')

mutual

/-- The indented text of a value that begins on a line `depth` levels deep. -/
def prettyAt (depth : Nat) : Json → String
  | null => "null"
  | bool true => "true"
  | bool false => "false"
  | number mantissa places => numberText mantissa places
  | string text => quote text
  | array [] => "[]"
  | array (item :: items) =>
    "[" ++ prettyItems (depth + 1) (item :: items) ++ indent depth ++ "]"
  | object [] => "\x7b\x7d"
  | object (member :: members) =>
    "\x7b" ++ prettyMembers (depth + 1) (member :: members) ++ indent depth ++ "\x7d"

def prettyItems (depth : Nat) : List Json → String
  | [] => ""
  | [item] => indent depth ++ item.prettyAt depth
  | item :: rest => indent depth ++ item.prettyAt depth ++ "," ++ prettyItems depth rest

def prettyMembers (depth : Nat) : List (String × Json) → String
  | [] => ""
  | [(key, value)] => indent depth ++ quote key ++ ": " ++ value.prettyAt depth
  | (key, value) :: rest =>
    indent depth ++ quote key ++ ": " ++ value.prettyAt depth ++ "," ++ prettyMembers depth rest

end

def pretty (value : Json) : String := value.prettyAt 0

def render (compactly : Bool) (value : Json) : String :=
  if compactly then value.compact else value.pretty

end Json

end TableSchema
