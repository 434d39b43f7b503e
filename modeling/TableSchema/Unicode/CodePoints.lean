/-!
# Sets of code points

A property of characters is given by the intervals of code points that have it. The intervals
ascend, so a search may stop early; `contains_iff` says that it misses nothing. The tables are those
of version 17 of Unicode.
-/

namespace TableSchema.Unicode

/-- Whether the intervals begin at `low` or above, none is empty, and each lies above the one before
it. -/
def ascendFrom (low : Nat) : List (Nat × Nat) → Bool
  | [] => true
  | (first, last) :: rest => low ≤ first && first ≤ last && ascendFrom (last + 1) rest

/-- Intervals of code points in ascending order, both ends included. -/
structure CodePoints where
  intervals : List (Nat × Nat)
  ascending : ascendFrom 0 intervals = true := by decide +kernel

namespace CodePoints

/-- The search ends at the first interval that begins above `n`. -/
def covers : List (Nat × Nat) → Nat → Bool
  | [], _ => false
  | (first, last) :: rest, n => first ≤ n && (n ≤ last || covers rest n)

def contains (s : CodePoints) (c : Char) : Bool := covers s.intervals c.toNat

/-- How many code points the intervals hold. -/
def size (s : CodePoints) : Nat := s.intervals.foldl (fun n i => n + (i.2 + 1 - i.1)) 0

theorem le_of_mem_ascendFrom {l : List (Nat × Nat)} {low : Nat} (h : ascendFrom low l = true) :
    ∀ i ∈ l, low ≤ i.1 := by
  fun_induction ascendFrom low l with
  | case1 => simp
  | case2 low first last rest ih =>
    simp only [Bool.and_eq_true, decide_eq_true_eq] at h
    intro i hi
    rcases List.mem_cons.mp hi with rfl | hi
    · exact h.1.1
    · have := ih h.2 i hi
      omega

theorem covers_iff {l : List (Nat × Nat)} {low : Nat} (h : ascendFrom low l = true) (n : Nat) :
    covers l n = true ↔ ∃ i ∈ l, i.1 ≤ n ∧ n ≤ i.2 := by
  fun_induction ascendFrom low l with
  | case1 => simp [covers]
  | case2 low first last rest ih =>
    simp only [Bool.and_eq_true, decide_eq_true_eq] at h
    simp only [covers, Bool.and_eq_true, Bool.or_eq_true, decide_eq_true_eq, ih h.2,
      List.mem_cons, exists_eq_or_imp]
    constructor
    · rintro ⟨hle, hl | ⟨j, hj, hn⟩⟩
      · exact .inl ⟨hle, hl⟩
      · exact .inr ⟨j, hj, hn⟩
    · rintro (⟨hle, hl⟩ | ⟨j, hj, hn⟩)
      · exact ⟨hle, .inl hl⟩
      · have := le_of_mem_ascendFrom h.2 j hj
        exact ⟨by omega, .inr ⟨j, hj, hn⟩⟩

theorem contains_iff (s : CodePoints) (c : Char) :
    s.contains c = true ↔ ∃ i ∈ s.intervals, i.1 ≤ c.toNat ∧ c.toNat ≤ i.2 :=
  covers_iff s.ascending c.toNat

end CodePoints

/-- Functions that agree on the first 128 code points agree on the ASCII characters. -/
theorem eq_on_ascii (f g : Char → α) (h : ∀ n < 128, f (Char.ofNat n) = g (Char.ofNat n))
    {c : Char} (hc : c.toNat < 128) : f c = g c := by
  simpa using h c.toNat hc

end TableSchema.Unicode
