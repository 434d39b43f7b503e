import TableSchema.BigQuery.Type
import TableSchema.Error
import TableSchema.Length
import TableSchema.Unicode.Case

/-!
# From source types to BigQuery types

An ordered list of rules, of which the first that applies decides, and behind it the types of the
numeric family, which go by their precision. Names are compared in upper case.
-/

namespace TableSchema.BigQuery

inductive Pattern where
  /-- Names that hold this text anywhere. -/
  | holds (part : String)
  | exactly (name : String)

def Pattern.matchesName : Pattern → String → Bool
  | holds part, name => Text.occursIn part.toList name.toList
  | exactly name', name => name == name'

structure TypeRule where
  target : FieldType
  patterns : List Pattern
  /-- The only dialect to which the rule applies, if there is one. -/
  only : Option Dialect := none

def TypeRule.applies (rule : TypeRule) (name : String) (dialect : Option Dialect) : Bool :=
  (rule.only.isNone || rule.only == dialect) && rule.patterns.any (·.matchesName name)

/-- The rules in order. A date of Oracle has a time of day. -/
def typeRules : List TypeRule := [
  { target := .string
    patterns := [.holds "CHAR", .holds "TEXT", .holds "CLOB", .holds "JSON", .holds "UUID",
      .exactly "STRING", .exactly "ENUM", .exactly "SET", .exactly "XML"] },
  { target := .integer, patterns := [.holds "INT", .holds "SERIAL", .holds "YEAR"] },
  { target := .float
    patterns := [.holds "FLOAT", .holds "DOUBLE", .exactly "REAL", .exactly "MONEY"] },
  { target := .datetime, patterns := [.exactly "DATE"], only := some .oracle },
  { target := .datetime
    patterns := [.exactly "DATETIME", .exactly "TIMESTAMP",
      .exactly "TIMESTAMP WITHOUT TIME ZONE"] },
  { target := .timestamp
    patterns := [.exactly "TIMESTAMPTZ", .exactly "TIMESTAMP WITH TIME ZONE",
      .exactly "TIMESTAMP WITH LOCAL TIME ZONE"] },
  { target := .date, patterns := [.exactly "DATE"] },
  { target := .time
    patterns := [.exactly "TIME", .exactly "TIME WITHOUT TIME ZONE", .exactly "TIMETZ",
      .exactly "TIME WITH TIME ZONE"] },
  { target := .boolean, patterns := [.holds "BOOL"] },
  { target := .bytes, patterns := [.holds "BYTE", .holds "BLOB", .holds "BINARY"] }]

def numericFamily : List String := ["NUMERIC", "NUMBER", "DECIMAL", "DEC", "FIXED"]

/-- The largest precision whose whole numbers all fit in 64 bits. -/
def maxIntegerPrecision : Nat := 18

/-- Dialects in which a number without a precision has any precision. -/
def unboundedNumbers : Option Dialect → Bool
  | some .oracle | some .postgresql => true
  | _ => false

def numericType (length : Option Length) (scale : Option Nat) (dialect : Option Dialect) :
    FieldType :=
  match length with
  | none => if unboundedNumbers dialect then .numeric else .integer
  | some .any => .numeric
  | some (.value precision) =>
    if precision ≤ maxIntegerPrecision then
      if scale.any (· > 0) then .float else .integer
    else .numeric

/-- The BigQuery type of a source type. -/
def fieldType (dataType : String) (length : Option Length) (scale : Option Nat)
    (dialect : Option Dialect) : Except Error FieldType :=
  let name := Unicode.upperCase dataType
  match typeRules.find? (·.applies name dialect) with
  | some rule => .ok rule.target
  | none =>
    if numericFamily.contains name then .ok (numericType length scale dialect)
    else .error (.unknownType name)

end TableSchema.BigQuery
