import TableSchema.Proofs.Grammar.Description

/-!
# Writing a description down

Every description has a layout: its lexemes with one blank before each, and keywords in capital
letters.
-/

namespace TableSchema

open Scan

namespace Lexeme

def written : Lexeme → List Char
  | keyword w => w.toList
  | word w => w.letters
  | name quote text => quote.char :: (doubleQuotes quote.char text.toList ++ [quote.char])
  | symbol mark => [mark.char]

/-- A keyword is a word in capital letters. -/
def isWritable : Lexeme → Bool
  | keyword w => w.toList != [] && w.toList.all isWordChar && w.toList.map Char.toUpper == w.toList
  | word _ | name .. | symbol _ => true

theorem spells_written {l : Lexeme} (h : l.isWritable = true) : l.Spells l.written := by
  cases l with
  | keyword w =>
    simp only [isWritable, Bool.and_eq_true, bne_iff_ne, beq_iff_eq] at h
    obtain ⟨⟨hne, hword⟩, hcapital⟩ := h
    exact spells_keyword hword hne hcapital
  | word w => exact .word w
  | name quote text => exact .name quote text
  | symbol mark => exact .symbol mark

end Lexeme

/-- Every keyword is a word in capital letters. -/
def Writable (ls : List Lexeme) : Prop := ls.all Lexeme.isWritable = true

def write (ls : List Lexeme) : List Char := ls.flatMap fun l => ' ' :: l.written

theorem startsWord_write (ls : List Lexeme) : startsWord (write ls) = false := by
  cases ls with
  | nil => rfl
  | cons l ls => exact (by decide +kernel : isWordChar ' ' = false)

theorem layout_write (h : Writable ls) : Layout ls (write ls) := by
  induction ls with
  | nil => exact .nil .nil
  | cons l ls ih =>
    rw [Writable, List.all_cons, Bool.and_eq_true] at h
    have hspells := Lexeme.spells_written h.1
    exact .cons (.blank rfl .nil) hspells (fun _ => startsWord_write ls) (ih h.2)

-- ---------------------------------------------------------------------------
-- The keywords of a description
-- ---------------------------------------------------------------------------

@[simp] theorem writable_nil : Writable [] := rfl

@[simp] theorem writable_cons {l : Lexeme} :
    Writable (l :: ls) ↔ l.isWritable = true ∧ Writable ls := by
  rw [Writable, List.all_cons, Bool.and_eq_true, Writable]

@[simp] theorem writable_append : Writable (ls ++ ms) ↔ Writable ls ∧ Writable ms := by
  rw [Writable, List.all_append, Bool.and_eq_true, Writable, Writable]

theorem writable_flatMap {xs : List α} {lexemes : α → List Lexeme}
    (h : ∀ x ∈ xs, Writable (lexemes x)) : Writable (xs.flatMap lexemes) := by
  rw [Writable, List.all_flatMap]
  exact List.all_eq_true.mpr h

@[simp] theorem isWritable_symbol (mark : Symbol) : (Lexeme.symbol mark).isWritable = true := rfl

@[simp] theorem writable_name (name : QuotedName) : Writable name.lexemes := rfl

theorem writable_joined {xs : OneOrMore α} {lexemes : α → List Lexeme} (mark : Symbol)
    (h : ∀ x, Writable (lexemes x)) : Writable (xs.joined mark lexemes) := by
  rw [OneOrMore.joined, writable_append]
  exact ⟨h _, writable_flatMap fun x _ => writable_cons.mpr ⟨rfl, h x⟩⟩

@[simp] theorem writable_namesInParentheses (names : OneOrMore QuotedName) :
    Writable (namesInParentheses names) := by
  simp [namesInParentheses, writable_joined]

theorem writable_lexemesIf {words : List String} (present : Bool)
    (h : Writable (keywordLexemes words)) : Writable (lexemesIf present words) := by
  cases present with
  | false => rfl
  | true => exact h

theorem LengthDescription.writable_lexemes (d : LengthDescription) : Writable d.lexemes := by
  obtain ⟨_ | _, _ | _⟩ := d <;> rfl

theorem TypeDescription.writable_lexemes (d : TypeDescription) : Writable d.lexemes := by
  have hmodifiers : Writable d.modifierLexemes := by
    refine writable_flatMap fun m _ => ?_
    have hall : TypeSpec.modifiers.all
        (fun m => (keywordLexemes m).all Lexeme.isWritable) = true := rfl
    exact List.all_eq_true.mp hall m.val m.property
  have hlength : Writable d.lengthLexemes := by
    rw [lengthLexemes]
    cases d.length with
    | none => rfl
    | some length => exact length.writable_lexemes
  have hflags : Writable d.flagLexemes := by
    rw [flagLexemes, Writable, List.all_map]
    exact List.all_eq_true.mpr fun flag _ => by cases flag <;> rfl
  have hbrackets : Writable d.bracketLexemes := by
    rw [bracketLexemes, Writable, List.all_flatten]
    exact List.all_eq_true.mpr fun bracket hb => by
      rw [List.eq_of_mem_replicate hb]; rfl
  exact writable_cons.mpr ⟨rfl, by simp [hmodifiers, hlength, hflags, hbrackets]⟩

theorem ColumnDescription.writable_lexemes (d : ColumnDescription) : Writable d.lexemes := by
  have hnotNull : Writable (lexemesIf d.notNull ["NOT", "NULL"]) := writable_lexemesIf _ rfl
  have hkey : Writable (keywordLexemes (d.key.elim [] KeyMarker.keywords)) := by
    cases d.key with
    | none => rfl
    | some marker => cases marker <;> rfl
  simp [lexemes, d.type.writable_lexemes, hnotNull, hkey]

theorem writable_eventLexemes (event : String) (action : Option ReferentialAction)
    (h : (Lexeme.keyword event).isWritable = true) : Writable (eventLexemes event action) := by
  cases action with
  | none => rfl
  | some action =>
    refine writable_cons.mpr ⟨rfl, writable_cons.mpr ⟨h, ?_⟩⟩
    cases action <;> rfl

theorem ReferenceDescription.writable_lexemes (d : ReferenceDescription) : Writable d.lexemes := by
  have hmatch : Writable d.matchLexemes := by
    rw [matchLexemes]
    cases d.matchMode <;> rfl
  have hdelete : Writable (eventLexemes "DELETE" d.onDelete) := writable_eventLexemes _ _ rfl
  have hupdate : Writable (eventLexemes "UPDATE" d.onUpdate) := writable_eventLexemes _ _ rfl
  refine writable_cons.mpr ⟨rfl, ?_⟩
  simp [writable_joined, hmatch, hdelete, hupdate]

theorem ConstraintDescription.writable_lexemes (d : ConstraintDescription) :
    Writable d.lexemes := by
  have hname : Writable d.nameLexemes := by
    rw [nameLexemes]
    cases d.name <;> rfl
  have hkind : Writable (keywordLexemes d.kind.keywords) := by
    cases d.kind <;> rfl
  have hreferences : Writable (d.kind.references?.elim [] ReferenceDescription.lexemes) := by
    cases d.kind.references? with
    | none => rfl
    | some reference => exact reference.writable_lexemes
  simp [lexemes, hname, hkind, hreferences]

theorem ItemDescription.writable_lexemes (d : ItemDescription) : Writable d.lexemes := by
  cases d with
  | column d => exact d.writable_lexemes
  | constraint d => exact d.writable_lexemes

theorem TableDescription.writable_lexemes (d : TableDescription) : Writable d.lexemes := by
  have hscope : Writable (keywordLexemes (d.scope.elim [] ([·.keyword]))) := by
    cases d.scope with
    | none => rfl
    | some scope => cases scope <;> rfl
  have hduration : Writable (keywordLexemes (d.duration.elim [] ([·.keyword]))) := by
    cases d.duration with
    | none => rfl
    | some duration => cases duration <;> rfl
  have hexists : Writable (lexemesIf d.ifNotExists ["IF", "NOT", "EXISTS"]) :=
    writable_lexemesIf _ rfl
  have hcreate : (Lexeme.keyword "CREATE").isWritable = true := rfl
  have htable : (Lexeme.keyword "TABLE").isWritable = true := rfl
  simp [lexemes, hscope, hduration, hexists, hcreate, htable, writable_joined,
    ItemDescription.writable_lexemes]

end TableSchema
