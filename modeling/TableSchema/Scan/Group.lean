import TableSchema.Scan.Literal
import TableSchema.Unicode.Blank

/-!
# Groups in parentheses

A group ends at the parenthesis that closes it, literals inside being taken whole. The same rule
delimits a group that is skipped (`pastGroup`) and one inside a value that is kept (`pastBare`).
-/

namespace TableSchema.Scan

open Unicode

/-- What follows the group open at the start, `depth` more groups being open inside it. An unclosed
group runs to the end. -/
def pastGroup (depth : Nat) : List Char → List Char
  | [] => []
  | c :: rest =>
    if c = '(' then pastGroup (depth + 1) rest
    else if c = ')' then
      match depth with
      | 0 => rest
      | inner + 1 => pastGroup inner rest
    else if isQuote c then pastGroup depth (pastLiteral c rest)
    else pastGroup depth rest
termination_by s => s.length
decreasing_by
  · simp
  · simp
  · have := (pastLiteral_suffix c rest).length_le
    simp; omega
  · simp

theorem pastGroup_suffix (depth : Nat) (s : List Char) : pastGroup depth s <:+ s := by
  fun_induction pastGroup depth s with
  | case1 => exact List.suffix_refl _
  | case2 _ rest ih => exact ih.trans (List.suffix_cons _ rest)
  | case3 rest => exact List.suffix_cons _ rest
  | case4 rest _ _ ih => exact ih.trans (List.suffix_cons _ rest)
  | case5 _ c rest _ _ _ ih =>
    exact ih.trans ((pastLiteral_suffix c rest).trans (List.suffix_cons c rest))
  | case6 _ c rest _ _ _ ih => exact ih.trans (List.suffix_cons c rest)

/-- Whether a value without quotes ends here, outside all groups. -/
def endsBare (stopAtCast : Bool) (s : List Char) : Bool :=
  match s with
  | [] => true
  | c :: rest =>
    isBlank c || c == ',' || c == ')' ||
      (c == '-' && rest.head? == some '-') || (c == '/' && rest.head? == some '*') ||
      (stopAtCast && c == ':' && rest.head? == some ':')

/-- What follows a value without quotes, `depth` groups being open in it. Groups and literals are
taken whole; outside them the value ends where `endsBare` says. -/
def pastBare (stopAtCast : Bool) : (depth : Nat) → List Char → List Char
  | _, [] => []
  | 0, c :: rest =>
    if endsBare stopAtCast (c :: rest) then c :: rest
    else if c = '(' then pastBare stopAtCast 1 rest
    else if isQuote c then pastBare stopAtCast 0 (pastLiteral c rest)
    else pastBare stopAtCast 0 rest
  | inner + 1, c :: rest =>
    if c = '(' then pastBare stopAtCast (inner + 2) rest
    else if c = ')' then pastBare stopAtCast inner rest
    else if isQuote c then pastBare stopAtCast (inner + 1) (pastLiteral c rest)
    else pastBare stopAtCast (inner + 1) rest
termination_by _ s => s.length
decreasing_by
  · simp
  · have := (pastLiteral_suffix c rest).length_le
    simp; omega
  · simp
  · simp
  · simp
  · have := (pastLiteral_suffix c rest).length_le
    simp; omega
  · simp

theorem pastBare_suffix (stopAtCast : Bool) (depth : Nat) (s : List Char) :
    pastBare stopAtCast depth s <:+ s := by
  fun_induction pastBare stopAtCast depth s with
  | case1 => exact List.suffix_refl _
  | case2 => exact List.suffix_refl _
  | case3 rest _ ih => exact ih.trans (List.suffix_cons _ rest)
  | case4 c rest _ _ _ ih =>
    exact ih.trans ((pastLiteral_suffix c rest).trans (List.suffix_cons c rest))
  | case5 c rest _ _ _ ih => exact ih.trans (List.suffix_cons c rest)
  | case6 _ rest ih => exact ih.trans (List.suffix_cons _ rest)
  | case7 _ rest _ ih => exact ih.trans (List.suffix_cons _ rest)
  | case8 _ c rest _ _ _ ih =>
    exact ih.trans ((pastLiteral_suffix c rest).trans (List.suffix_cons c rest))
  | case9 _ c rest _ _ _ ih => exact ih.trans (List.suffix_cons c rest)

end TableSchema.Scan
