import Mathlib.Data.List.Induction
import Mathlib.Data.Prod.Lex
import Mathlib.Order.Monotone.Defs
import TableSchema.Proofs.Checked.Offset
import TableSchema.Text.Position
import TableSchema.Text.Split

/-!
# Offsets and positions

Converting a byte offset to a line and a column loses nothing but what lies inside a character or
beyond the end of the text. Positions ascend with the offsets and differ at different characters,
and the text before an offset can be read off its position.
-/

namespace TableSchema

open Checked (bytes)

variable {s t before rest : List Char} {c : Char}

namespace Position

/-- Positions in the order of a text: by lines, and within a line by columns. -/
def key (p : Position) : ℕ ×ₗ ℕ := toLex (p.line, p.column)

/-- The text before a position: the lines above it, each with the line feed that ends it, and what
stands before its column. There is none if the text has no such line or the line no such column. -/
def textBefore? (p : Position) (text : List Char) : Option (List Char) := do
  let lines := Text.splitAt '\n' text
  let line ← lines[p.line - 1]?
  if p.column - 1 ≤ line.length then
    some ((lines.take (p.line - 1)).flatMap (· ++ ['\n']) ++ line.take (p.column - 1))
  else none

-- ---------------------------------------------------------------------------
-- One character more
-- ---------------------------------------------------------------------------

theorem after_concat (before : List Char) (c : Char) :
    after (before ++ [c]) =
      if c = '\n' then ⟨(after before).line + 1, 1⟩
      else ⟨(after before).line, (after before).column + 1⟩ := by
  split <;> simp_all [after]

theorem key_lt_after_concat (before : List Char) (c : Char) :
    (after before).key < (after (before ++ [c])).key := by
  rw [after_concat]
  split <;> simp [key, Prod.Lex.toLex_lt_toLex]

theorem key_lt_of_isPrefix (h : s <+: t) (hne : s ≠ t) : (after s).key < (after t).key := by
  obtain ⟨more, rfl⟩ := h
  induction more using List.reverseRecOn with
  | nil => simp at hne
  | append_singleton more c ih =>
    rw [← List.append_assoc]
    by_cases hmore : more = []
    · simpa [hmore] using key_lt_after_concat s c
    · exact (ih (by simpa using hmore)).trans (key_lt_after_concat (s ++ more) c)

theorem key_le_of_isPrefix (h : s <+: t) : (after s).key ≤ (after t).key := by
  by_cases hst : s = t
  · rw [hst]
  · exact (key_lt_of_isPrefix h hst).le

-- ---------------------------------------------------------------------------
-- Characters within an offset
-- ---------------------------------------------------------------------------

theorem bytes_toList (text : String) : bytes text.toList = text.utf8ByteSize := by
  have hlist (s : List Char) : bytes s = (String.ofList s).utf8ByteSize := by
    induction s with
    | nil => simp
    | cons c s ih => simp [String.ofList_cons, ih]
  rw [hlist, String.ofList_toList]

theorem charsWithin_append (before rest : List Char) :
    charsWithin (bytes before) (before ++ rest) = before := by
  induction before with
  | nil =>
    cases rest with
    | nil => rfl
    | cons c rest => simp [charsWithin, c.utf8Size_pos.ne']
  | cons c before ih => simp [charsWithin, ih]

theorem charsWithin_isPrefix (n : Nat) (s : List Char) : charsWithin n s <+: s := by
  induction s generalizing n with
  | nil => simp [charsWithin]
  | cons c s ih =>
    rw [charsWithin]
    split
    · exact (List.prefix_cons_inj c).mpr (ih _)
    · exact List.nil_prefix

theorem charsWithin_isPrefix_of_le {m n : Nat} (h : m ≤ n) (s : List Char) :
    charsWithin m s <+: charsWithin n s := by
  induction s generalizing m n with
  | nil => simp [charsWithin]
  | cons c s ih =>
    rw [charsWithin, charsWithin]
    split
    next hm =>
      rw [if_pos (hm.trans h)]
      exact (List.prefix_cons_inj c).mpr (ih (by omega))
    next => exact List.nil_prefix

/-- A character that is cut is left out. -/
theorem charsWithin_inside {k : Nat} (hk : k < c.utf8Size) (before rest : List Char) :
    charsWithin (bytes before + k) (before ++ c :: rest) = before := by
  induction before with
  | nil =>
    have hcut : ¬c.utf8Size ≤ k := by omega
    simp [charsWithin, hcut]
  | cons b before ih => simp [charsWithin, Nat.add_assoc, ih]

theorem charsWithin_beyond {n : Nat} (h : bytes s ≤ n) : charsWithin n s = s := by
  have hwhole : charsWithin (bytes s) s = s := by simpa using charsWithin_append s []
  have hprefix := charsWithin_isPrefix_of_le h s
  rw [hwhole] at hprefix
  exact (charsWithin_isPrefix n s).eq_of_length_le hprefix.length_le

-- ---------------------------------------------------------------------------
-- Lines
-- ---------------------------------------------------------------------------

/-- A text is its whole lines and a last one without a line feed, and a position counts the former
and the characters of the latter. What follows the text lengthens the last line and adds others. -/
theorem exists_lines (before : List Char) :
    ∃ lines last, after before = ⟨lines.length + 1, last.length + 1⟩ ∧
      lines.flatMap (· ++ ['\n']) ++ last = before ∧
      ∀ rest first more, Text.splitAt '\n' rest = first :: more →
        Text.splitAt '\n' (before ++ rest) = lines ++ (last ++ first) :: more := by
  induction before using List.reverseRecOn with
  | nil => exact ⟨[], [], rfl, rfl, by simp⟩
  | append_singleton before c ih =>
    obtain ⟨lines, last, hafter, htext, hsplit⟩ := ih
    by_cases hc : c = '\n'
    · refine ⟨lines ++ [last], [], by simp [after_concat, hc, hafter], by simp [← htext, hc], ?_⟩
      intro rest first more hrest
      simpa [hc] using hsplit (c :: rest) [] (first :: more) (by simp [Text.splitAt, hc, hrest])
    · refine ⟨lines, last ++ [c], by simp [after_concat, hc, hafter], by simp [← htext], ?_⟩
      intro rest first more hrest
      simpa using hsplit (c :: rest) (c :: first) more (by simp [Text.splitAt, hc, hrest])

theorem textBefore?_after (before rest : List Char) :
    (after before).textBefore? (before ++ rest) = some before := by
  obtain ⟨lines, last, hafter, htext, hsplit⟩ := exists_lines before
  obtain ⟨first, more, hrest⟩ := List.exists_cons_of_ne_nil (Text.splitAt_ne_nil '\n' rest)
  simp [textBefore?, hsplit rest first more hrest, hafter, htext]

-- ---------------------------------------------------------------------------
-- Positions of offsets
-- ---------------------------------------------------------------------------

theorem charsWithin_boundary (before rest : String) :
    charsWithin before.utf8ByteSize (before ++ rest).toList = before.toList := by
  rw [String.toList_append, ← bytes_toList, charsWithin_append]

theorem bytes_charsWithin {text : String} {offset : Nat}
    (h : String.Pos.Raw.IsValid text ⟨offset⟩) : bytes (charsWithin offset text.toList) = offset := by
  obtain ⟨before, rest, rfl, hoffset⟩ := String.Pos.Raw.isValid_iff_exists_append.mp h
  obtain rfl : offset = before.utf8ByteSize := by simpa using congrArg (·.byteIdx) hoffset
  rw [charsWithin_boundary, bytes_toList]

/-- Positions never descend, and they ascend from each boundary between characters to the next. An
offset inside a character has the position where that begins, one beyond the end that of the end.
From the position of a boundary the text before it comes back. -/
theorem ofOffset_lossless (text : String) :
    Monotone (fun offset => (ofOffset text offset).key) ∧
    StrictMonoOn (fun offset => (ofOffset text offset).key)
      {offset | String.Pos.Raw.IsValid text ⟨offset⟩} ∧
    (∀ before c rest, text = before ++ String.singleton c ++ rest → ∀ k < c.utf8Size,
      ofOffset text (before.utf8ByteSize + k) = ofOffset text before.utf8ByteSize) ∧
    (∀ offset, text.utf8ByteSize ≤ offset →
      ofOffset text offset = ofOffset text text.utf8ByteSize) ∧
    ∀ before rest, text = before ++ rest →
      (ofOffset text before.utf8ByteSize).textBefore? text.toList = some before.toList := by
  refine ⟨?_, ?_, ?_, ?_, ?_⟩
  · intro m n h
    exact key_le_of_isPrefix (charsWithin_isPrefix_of_le h text.toList)
  · intro m hm n hn h
    apply key_lt_of_isPrefix (charsWithin_isPrefix_of_le h.le text.toList)
    intro heq
    have hbytes := congrArg bytes heq
    rw [bytes_charsWithin hm, bytes_charsWithin hn] at hbytes
    exact h.ne hbytes
  · rintro before c rest rfl k hk
    have hsplit : (before ++ String.singleton c ++ rest).toList =
        before.toList ++ c :: rest.toList := by simp
    rw [ofOffset, ofOffset, hsplit, ← bytes_toList, charsWithin_inside hk, charsWithin_append]
  · intro offset h
    rw [← bytes_toList] at h ⊢
    rw [ofOffset, ofOffset, charsWithin_beyond h, charsWithin_beyond le_rfl]
  · rintro before rest rfl
    rw [ofOffset, charsWithin_boundary, String.toList_append]
    exact textBefore?_after before.toList rest.toList

theorem ofOffset_lossless_of_accent :
    (ofOffset "é\nb" 2).key < (ofOffset "é\nb" 3).key ∧
      ofOffset "é\nb" 1 = ofOffset "é\nb" 0 ∧ ofOffset "é\nb" 9 = ofOffset "é\nb" 4 ∧
      (ofOffset "é\nb" 3).textBefore? "é\nb".toList = some "é\n".toList := by
  obtain ⟨-, hstrict, hinside, hbeyond, hback⟩ := ofOffset_lossless "é\nb"
  have hvalid (before rest : String) :
      String.Pos.Raw.IsValid (before ++ rest) ⟨before.utf8ByteSize⟩ :=
    String.Pos.Raw.isValid_iff_exists_append.mpr ⟨before, rest, rfl, by ext; simp⟩
  refine ⟨?_, ?_, ?_, ?_⟩
  · exact hstrict (hvalid "é" "\nb") (hvalid "é\n" "b") (by decide)
  · exact hinside "" 'é' "\nb" (by decide) 1 (by decide)
  · exact hbeyond 9 (by decide)
  · exact hback "é\n" "b" (by decide)

end Position

end TableSchema
