import TableSchema.Proofs.Program.Statement
import TableSchema.Proofs.ScanLaws
import TableSchema.Proofs.StatementLaws

/-!
# What a run takes whole

A run passes over some stretches of a text without looking for tokens in them: comments, quoted
names and literals, values that are kept as written, and groups that are skipped. `extents` lists
them, for a rule and then for the whole of a text with one statement. Where several alternatives are
tried all of their stretches count.
-/

namespace TableSchema

open Rule Scan Unicode

/-- Why a stretch of text is taken whole. -/
inductive Extent.Kind where
  | comment
  | quoted
  | value
  | group
  deriving DecidableEq, Repr

/-- A stretch of text that is taken whole, from where `start` is still to be read to where `rest`
is. -/
structure Extent where
  kind : Extent.Kind
  start : List Char
  rest : List Char
  deriving DecidableEq, Repr

/-- Whether the character before `behind` belongs to the extent. -/
def Extent.covers (e : Extent) (behind : List Char) : Prop :=
  e.rest.length ≤ behind.length ∧ behind.length < e.start.length

instance (e : Extent) (behind : List Char) : Decidable (e.covers behind) := by
  unfold Extent.covers; infer_instance

-- ---------------------------------------------------------------------------
-- Trivia and tokens
-- ---------------------------------------------------------------------------

namespace Scan

/-- The comments in the trivia at the start. -/
def comments : List Char → List Extent
  | [] => []
  | c :: rest =>
    if opensBlock (c :: rest) then
      ⟨.comment, c :: rest, pastBlock rest.tail⟩ :: comments (pastBlock rest.tail)
    else if opensLine (c :: rest) then
      ⟨.comment, c :: rest, pastLine rest.tail⟩ :: comments (pastLine rest.tail)
    else if isBlank c then comments rest
    else []
termination_by s => s.length
decreasing_by
  · have := (pastBlock_suffix rest.tail).length_le
    simp at this ⊢; omega
  · have := (pastLine_suffix rest.tail).length_le
    simp at this ⊢; omega
  · simp

/-- What follows a literal whose quote has been read. An unclosed one runs to the end. -/
def afterLiteral (quote : Char) (escapes : Bool) (s : List Char) : List Char :=
  ((readLiteral quote escapes s).map Prod.snd).getD []

theorem pastLiteral_eq (quote : Char) (s : List Char) :
    pastLiteral quote s = afterLiteral quote (escapesIn quote) s := by
  rw [pastLiteral, afterLiteral]
  cases readLiteral quote (escapesIn quote) s <;> rfl

/-- The literal at the start, if a quote opens it that `opens` names. -/
def quotedExtent (opens : Char → Prop) [DecidablePred opens] (escapes : Bool) :
    List Char → List Extent
  | [] => []
  | c :: rest =>
    if opens c then [⟨.quoted, c :: rest, afterLiteral c escapes rest⟩] else []

/-- The literal or group at the start. -/
def tokenExtent : List Char → List Extent
  | [] => []
  | c :: rest =>
    if isQuote c then [⟨.quoted, c :: rest, pastLiteral c rest⟩]
    else if c = '(' then [⟨.group, c :: rest, pastGroup 0 rest⟩]
    else []

end Scan

-- ---------------------------------------------------------------------------
-- Rules
-- ---------------------------------------------------------------------------

namespace Rule

def bindExtents (p : Rule α) (first : List Char → List Extent)
    (next : α → List Char → List Extent) (s : List Char) : List Extent :=
  first s ++ match p.read s with
    | some (a, rest) => next a rest
    | none => []

def orElseExtents (p : Rule α) (first second : List Char → List Extent) (s : List Char) :
    List Extent :=
  first s ++ match p.read s with
    | some _ => []
    | none => second s

def sourceExtents (p : Rule α) (extents : List Char → List Extent) (s : List Char) :
    List Extent :=
  comments s ++ extents (skipTrivia s) ++ match p.read (skipTrivia s) with
    | some (_, rest) => [⟨.value, skipTrivia s, rest⟩]
    | none => []

def loopExtents (round : σ → Rule (Round σ β)) (advances : ∀ x, (round x).Advances)
    (extents : σ → List Char → List Extent) (x : σ) (s : List Char) : List Extent :=
  extents x s ++
    match h : (round x).read s with
    | some (.again y, rest) =>
      have : rest.length < s.length := advances x _ _ _ h
      loopExtents round advances extents y rest
    | _ => []
termination_by s.length

/-- What a run of the rule takes whole. -/
def Program.extents : {α : Type} → {p : Rule α} → Program p → List Char → List Extent
  | _, _, .pure _ => fun _ => []
  | _, _, .never => fun _ => []
  | _, _, .miss _ => fun _ => []
  | _, _, .keyword _ _ => comments
  | _, _, .symbol _ _ => comments
  | _, _, .run1 _ _ => comments
  | _, _, .quotedName => fun s =>
    comments s ++ quotedExtent (fun c => c = '`' ∨ c = '"') false (skipTrivia s)
  | _, _, .literal quote _ => fun s => comments s ++ quotedExtent (· = quote) true (skipTrivia s)
  | _, _, .bare stopAtCast => fun s =>
    comments s ++ [⟨.value, skipTrivia s, pastBare stopAtCast 0 (skipTrivia s)⟩]
  | _, _, .unclaimed => fun s => comments s ++ tokenExtent (skipTrivia s)
  | _, _, @bind _ _ p _ P F => bindExtents p P.extents fun a => (F a).extents
  | _, _, @orElse _ p _ P Q => orElseExtents p P.extents Q.extents
  | _, _, .ahead P => P.extents
  | _, _, @source _ p P => sourceExtents p P.extents
  | _, _, @loop _ _ round advances x P => loopExtents round advances (fun y => (P y).extents) x

end Rule

-- ---------------------------------------------------------------------------
-- Statements
-- ---------------------------------------------------------------------------

namespace Statement

/-- What the search for another statement takes whole. -/
def searchExtents (s : List Char) : List Extent :=
  comments s ++ headProgram.extents s ++ tokenExtent (skipTrivia s) ++
    match h : skipTrivia s with
    | [] => []
    | c :: rest =>
      have := length_pastToken h
      searchExtents (pastToken s)
termination_by s.length

/-- What reading a text takes whole. -/
def extents (text : List Char) : List Extent :=
  program.extents text ++ match rule.read text with
    | some (_, rest) => searchExtents rest
    | none => []

end Statement

end TableSchema
