import Mathlib.Algebra.GroupWithZero.Nat
import TableSchema.Rule

/-!
# Checked offsets

Places of a text as offsets into its UTF-8 form. An operation that has no result at some offsets,
such as a slice that would cut a character, stops with a fault there, and so does a loop that gets
no further. `At text pos rest` says that `rest` is what is left of the text at an offset; it is how
offsets and the places of the grammar correspond.
-/

namespace TableSchema.Checked

open Rule

inductive Fault where
  /-- An offset beyond the end of a text or inside a character. -/
  | offset
  /-- A difference below zero. -/
  | underflow
  /-- A round of a loop that ends where it began. -/
  | stuck
  deriving DecidableEq, Repr

/-- The length of the UTF-8 form. -/
def bytes (s : List Char) : Nat := (s.map Char.utf8Size).sum

def difference (a b : Nat) : Except Fault Nat := if b ≤ a then .ok (a - b) else .error .underflow

/-- The text behind an offset. -/
def sliceFrom : List Char → Nat → Except Fault (List Char)
  | s, 0 => .ok s
  | [], _ + 1 => .error .offset
  | c :: s, n + 1 =>
    if c.utf8Size ≤ n + 1 then sliceFrom s (n + 1 - c.utf8Size) else .error .offset

/-- The text before an offset. -/
def sliceTo : List Char → Nat → Except Fault (List Char)
  | _, 0 => .ok []
  | [], _ + 1 => .error .offset
  | c :: s, n + 1 =>
    if c.utf8Size ≤ n + 1 then (c :: ·) <$> sliceTo s (n + 1 - c.utf8Size) else .error .offset

/-- The text between two offsets. -/
def slice (s : List Char) (start stop : Nat) : Except Fault (List Char) := do
  if start ≤ stop then sliceTo (← sliceFrom s start) (stop - start) else throw .offset

/-- Repeats a round that moves an offset forward, as far as `limit`. -/
def loop (place : σ → Nat) (limit : Nat) (round : σ → Except Fault (Round σ β)) (x : σ) :
    Except Fault β :=
  match round x with
  | .error fault => .error fault
  | .ok (.finish b) => .ok b
  | .ok (.again y) =>
    if place y ≤ place x then .error .stuck
    else if limit < place y then .error .offset
    else loop place limit round y
termination_by limit - place x

-- ---------------------------------------------------------------------------
-- Lengths
-- ---------------------------------------------------------------------------

@[simp] theorem bytes_nil : bytes [] = 0 := rfl

@[simp] theorem bytes_cons (c : Char) (s : List Char) : bytes (c :: s) = c.utf8Size + bytes s := rfl

@[simp] theorem bytes_append (s t : List Char) : bytes (s ++ t) = bytes s + bytes t := by
  simp [bytes]

theorem length_le_bytes (s : List Char) : s.length ≤ bytes s := by
  induction s with
  | nil => simp
  | cons c s ih => have := c.utf8Size_pos; simp; omega

theorem bytes_pos (h : s ≠ []) : 0 < bytes s := by
  have := List.length_pos_iff.mpr h
  have := length_le_bytes s
  omega

theorem bytes_eq_zero_iff : bytes s = 0 ↔ s = [] := by
  constructor
  · intro h
    cases s with
    | nil => rfl
    | cons c s => have := bytes_pos (List.cons_ne_nil c s); omega
  · rintro rfl
    rfl

@[simp] theorem ok_bind (a : α) (f : α → Except Fault β) : (Except.ok a >>= f) = f a := rfl

theorem difference_of_le (h : b ≤ a) : difference a b = .ok (a - b) := if_pos h

-- ---------------------------------------------------------------------------
-- Slices
-- ---------------------------------------------------------------------------

theorem sliceFrom_append (s t : List Char) : sliceFrom (s ++ t) (bytes s) = .ok t := by
  induction s with
  | nil => cases t <;> rfl
  | cons c s ih =>
    obtain ⟨n, hn⟩ : ∃ n, bytes (c :: s) = n + 1 :=
      ⟨bytes (c :: s) - 1, by have := bytes_pos (List.cons_ne_nil c s); omega⟩
    have hc : bytes (c :: s) - c.utf8Size = bytes s := by simp
    rw [List.cons_append, hn, sliceFrom, ← hn, if_pos (by simp), hc, ih]

theorem sliceTo_append (s t : List Char) : sliceTo (s ++ t) (bytes s) = .ok s := by
  induction s with
  | nil => cases t <;> rfl
  | cons c s ih =>
    obtain ⟨n, hn⟩ : ∃ n, bytes (c :: s) = n + 1 :=
      ⟨bytes (c :: s) - 1, by have := bytes_pos (List.cons_ne_nil c s); omega⟩
    have hc : bytes (c :: s) - c.utf8Size = bytes s := by simp
    rw [List.cons_append, hn, sliceTo, ← hn, if_pos (by simp), hc, ih]
    rfl

theorem slice_append (s t u : List Char) :
    slice (s ++ (t ++ u)) (bytes s) (bytes s + bytes t) = .ok t := by
  rw [slice, if_pos (by omega), sliceFrom_append, Nat.add_sub_cancel_left]
  exact sliceTo_append t u

-- ---------------------------------------------------------------------------
-- Places
-- ---------------------------------------------------------------------------

/-- What is left of a text at an offset. -/
def At (text : List Char) (pos : Nat) (rest : List Char) : Prop :=
  ∃ before, text = before ++ rest ∧ bytes before = pos

namespace At

variable {text s r : List Char} {p q : Nat}

theorem start (text : List Char) : At text 0 text := ⟨[], rfl, rfl⟩

theorem suffix (h : At text p s) : s <:+ text := by
  obtain ⟨before, rfl, -⟩ := h
  exact ⟨before, rfl⟩

theorem sliceFrom_eq (h : At text p s) : sliceFrom text p = .ok s := by
  obtain ⟨before, rfl, rfl⟩ := h
  exact sliceFrom_append before s

theorem advance (h : At text p (u ++ s)) : At text (p + bytes u) s := by
  obtain ⟨before, rfl, rfl⟩ := h
  exact ⟨before ++ u, by simp, by simp⟩

theorem trans (hs : At text p s) (hr : At s q r) : At text (p + q) r := by
  obtain ⟨before, rfl, rfl⟩ := hs
  obtain ⟨u, rfl, rfl⟩ := hr
  exact ⟨before ++ u, by simp, by simp⟩

theorem dropWhile (f : Char → Bool) (s : List Char) :
    At s (bytes (s.takeWhile f)) (s.dropWhile f) :=
  ⟨s.takeWhile f, List.takeWhile_append_dropWhile.symm, rfl⟩

theorem add_bytes (h : At text p s) : p + bytes s = bytes text := by
  obtain ⟨before, rfl, rfl⟩ := h
  simp

theorem le_bytes (h : At text p s) : p ≤ bytes text := by
  have := h.add_bytes
  omega

/-- An offset is a place of the text in one way only. -/
theorem inj (hs : At text p s) (hr : At text p r) : s = r := by
  have := hs.sliceFrom_eq.symm.trans hr.sliceFrom_eq
  cases this
  rfl

theorem lt_iff (hs : At text p s) (hr : At text q r) : r.length < s.length ↔ p < q := by
  have hbytes {s r : List Char} (h : s <:+ r) (hl : s.length < r.length) : bytes s < bytes r := by
    obtain ⟨u, rfl⟩ := h
    have : u ≠ [] := by rintro rfl; simp at hl
    have := bytes_pos this
    simp
    omega
  have hp := hs.add_bytes
  have hq := hr.add_bytes
  rcases Nat.lt_trichotomy r.length s.length with hl | hl | hl
  · have := hbytes (List.suffix_of_suffix_length_le hr.suffix hs.suffix (Nat.le_of_lt hl)) hl
    exact ⟨fun _ => by omega, fun _ => hl⟩
  · have := (List.suffix_of_suffix_length_le hr.suffix hs.suffix (Nat.le_of_eq hl)).eq_of_length hl
    subst this
    exact ⟨fun h => by omega, fun h => by omega⟩
  · have := hbytes (List.suffix_of_suffix_length_le hs.suffix hr.suffix (Nat.le_of_lt hl)) hl
    exact ⟨fun h => by omega, fun h => by omega⟩

theorem slice_eq (hs : At text p s) (hr : At text q r) (h : r <:+ s) :
    slice text p q = .ok (s.take (s.length - r.length)) := by
  obtain ⟨before, rfl, rfl⟩ := hs
  obtain ⟨u, rfl⟩ := h
  have hq : q = bytes before + bytes u := by
    have := hr.add_bytes
    simp at this
    omega
  have hlen : (u ++ r).length - r.length = u.length := by simp
  rw [hq, slice_append, hlen, List.take_left]

end At

theorem loop_finish {place : σ → Nat} {round : σ → Except Fault (Round σ β)}
    (h : round x = .ok (.finish b)) : loop place limit round x = .ok b := by
  rw [loop, h]

theorem loop_again {place : σ → Nat} {round : σ → Except Fault (Round σ β)}
    (h : round x = .ok (.again y)) (hlt : place x < place y) (hle : place y ≤ limit) :
    loop place limit round x = loop place limit round y := by
  rw [loop, h]
  simp only [if_neg (Nat.not_le.mpr hlt), if_neg (Nat.not_lt.mpr hle)]

end TableSchema.Checked
