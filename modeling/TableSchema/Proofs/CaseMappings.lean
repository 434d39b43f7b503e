import Mathlib.Data.List.Basic
import TableSchema.Unicode.Case

/-!
# Case mappings of texts that are already in the case

Mapping a text to a case a second time changes nothing. Upper case may turn one character into
several and lower case looks at what stands around a sigma, but no character that either of them
writes is moved by it again, and lower case writes no capital sigma.
-/

namespace TableSchema.Unicode

variable {expansions : List (Nat × List Nat)} {runs : List CaseRun} {run points : CaseRun}
  {c d : Char} {n m : Nat} {text before : List Char}

-- ---------------------------------------------------------------------------
-- Runs
-- ---------------------------------------------------------------------------

namespace CaseRun

/-- The points that a run moves. -/
def Has (run : CaseRun) (n : Nat) : Prop :=
  run.first ≤ n ∧ n ≤ run.last ∧ (n - run.first) % run.step = 0

/-- The run of a single point, which stays where it is. -/
def point (n : Nat) : CaseRun := ⟨n, n, 1, n⟩

/-- The run that takes the images of a run back. -/
def back (run : CaseRun) : CaseRun :=
  ⟨run.target, run.target + (run.last - run.first), run.step, run.first⟩

/-- Whether ascending runs move none of the given points. Those lie beside a run, or both are every
second point of one stretch, the one the odd and the other the even ones. -/
def avoid (points : CaseRun) : List CaseRun → Bool
  | [] => true
  | run :: runs =>
    Nat.blt points.last run.first ||
      (Nat.blt run.last points.first ||
          (Nat.beq points.step 2 || Nat.beq points.first points.last) && Nat.beq run.step 2 &&
            Nat.beq ((points.first + run.first) % 2) 1) &&
        avoid points runs

theorem has_point : (point n).Has n := by simp [point, Has]

theorem image?_of_avoid (h : avoid points runs = true) (hn : points.Has n) :
    image? runs n = none := by
  induction runs with
  | nil => rfl
  | cons run runs ih =>
    obtain ⟨hfirst, hlast, hstep⟩ := hn
    simp only [avoid, Bool.or_eq_true, Bool.and_eq_true, Nat.blt_eq, Nat.beq_eq] at h
    rw [image?]
    split
    · rfl
    rcases h with h | ⟨h, hrest⟩
    · omega
    rw [if_neg ?_, ih hrest]
    rintro ⟨hl, hr⟩
    rcases h with h | ⟨⟨hp, h2⟩, hodd⟩
    · omega
    -- The points moved are every second one, and the given ones are those between them.
    · rw [h2] at hr
      rcases hp with hp | hp
      · rw [hp] at hstep
        omega
      · omega

theorem exists_of_image? (h : image? runs n = some m) : ∃ run ∈ runs, run.back.Has m := by
  induction runs with
  | nil => simp [image?] at h
  | cons run runs ih =>
    rw [image?] at h
    split at h
    · simp at h
    split at h
    next hr =>
      cases h
      refine ⟨run, List.mem_cons_self .., ?_⟩
      simp [Has, back, hr.2]
      omega
    next =>
      obtain ⟨found, hf, hm⟩ := ih h
      exact ⟨found, List.mem_cons_of_mem _ hf, hm⟩

end CaseRun

-- ---------------------------------------------------------------------------
-- Single characters
-- ---------------------------------------------------------------------------

theorem expansion?_of_avoid (h : CaseRun.avoid points (expansions.map fun e => .point e.1) = true)
    (hn : points.Has n) : expansion? expansions n = none := by
  induction expansions with
  | nil => rfl
  | cons e expansions ih =>
    obtain ⟨point, image⟩ := e
    simp [CaseRun.avoid, CaseRun.point] at h ih
    obtain ⟨hfirst, hlast, -⟩ := id hn
    rw [expansion?]
    split
    · rfl
    rcases h with h | ⟨h, hrest⟩
    · omega
    · rw [if_neg (by omega), ih hrest]

theorem mem_of_expansion? (h : expansion? expansions n = some image) :
    ∃ e ∈ expansions, e.2 = image := by
  induction expansions with
  | nil => simp [expansion?] at h
  | cons e expansions ih =>
    obtain ⟨point, first⟩ := e
    rw [expansion?] at h
    split at h
    · simp at h
    split at h
    · cases h
      exact ⟨_, List.mem_cons_self .., rfl⟩
    · obtain ⟨found, hf, hi⟩ := ih h
      exact ⟨found, List.mem_cons_of_mem _ hf, hi⟩

/-- The points that a mapping sends something to. Zero stands for numbers that are no character. -/
def images (expansions : List (Nat × List Nat)) (runs : List CaseRun) : List CaseRun :=
  .point 0 :: runs.map (·.back) ++ expansions.flatMap fun e => e.2.map .point

/-- Whether a mapping moves nothing that it sends something to. -/
def settles (expansions : List (Nat × List Nat)) (runs : List CaseRun) : Bool :=
  (images expansions runs).all fun points =>
    points.avoid runs && points.avoid (expansions.map fun e => .point e.1)

theorem toNat_ofNat (n : Nat) : (Char.ofNat n).toNat = n ∨ (Char.ofNat n).toNat = 0 := by
  by_cases h : n.isValidChar
  · exact .inl (by rw [Char.ofNat, dif_pos h]; rfl)
  · exact .inr (by rw [Char.ofNat, dif_neg h]; rfl)

theorem mapCase_ofNat (h : settles expansions runs = true) (hp : points ∈ images expansions runs)
    (hm : points.Has m) : mapCase expansions runs (Char.ofNat m) = [Char.ofNat m] := by
  have hfixed {points : CaseRun} (hp : points ∈ images expansions runs)
      (hc : points.Has (Char.ofNat m).toNat) :
      mapCase expansions runs (Char.ofNat m) = [Char.ofNat m] := by
    have havoid := List.all_eq_true.mp h points hp
    rw [Bool.and_eq_true] at havoid
    rw [mapCase, expansion?_of_avoid havoid.2 hc, CaseRun.image?_of_avoid havoid.1 hc]
  have hzero : CaseRun.point 0 ∈ images expansions runs := by simp [images]
  rcases toNat_ofNat m with hc | hc
  · exact hfixed hp (by simpa [hc] using hm)
  · exact hfixed hzero (by simpa [hc] using CaseRun.has_point)

/-- A mapping that settles does nothing to the characters that it writes. -/
theorem mapCase_of_mem (h : settles expansions runs = true)
    (hd : d ∈ mapCase expansions runs c) : mapCase expansions runs d = [d] := by
  unfold mapCase at hd
  split at hd
  next image hi =>
    obtain ⟨m, hm, rfl⟩ := List.mem_map.mp hd
    obtain ⟨e, he, rfl⟩ := mem_of_expansion? hi
    refine mapCase_ofNat h ?_ CaseRun.has_point
    simp only [images, List.mem_append, List.mem_flatMap, List.mem_map]
    exact .inr ⟨e, he, m, hm, rfl⟩
  next he =>
    split at hd
    next m hm =>
      obtain ⟨run, hr, hb⟩ := CaseRun.exists_of_image? hm
      cases List.mem_singleton.mp hd
      refine mapCase_ofNat h ?_ hb
      simp only [images, List.mem_append, List.mem_cons, List.mem_map]
      exact .inl (.inr ⟨run, hr, rfl⟩)
    next hm =>
      cases List.mem_singleton.mp hd
      rw [mapCase, he, hm]

theorem upperChar_of_mem (hd : d ∈ upperChar c) : upperChar d = [d] :=
  mapCase_of_mem (by decide +kernel) hd

theorem lowerChar_of_mem (hd : d ∈ lowerChar c) : lowerChar d = [d] :=
  mapCase_of_mem (by decide +kernel) hd

-- ---------------------------------------------------------------------------
-- Texts
-- ---------------------------------------------------------------------------

theorem upperChars_upperChars (text : List Char) :
    upperChars (upperChars text) = upperChars text := by
  have hfixed : ∀ d ∈ upperChars text, upperChar d = [d] := by
    intro d hd
    obtain ⟨c, -, hc⟩ := List.mem_flatMap.mp hd
    exact upperChar_of_mem hc
  rw [upperChars, List.flatMap_congr hfixed, List.flatMap_singleton']

/-- Whatever stands around it, a sigma is written as one of the two small ones. -/
theorem lowerChar_of_mem_lowerAfter (hd : d ∈ lowerAfter before text) : lowerChar d = [d] := by
  induction text generalizing before with
  | nil => simp [lowerAfter] at hd
  | cons c rest ih =>
    rw [lowerAfter, List.mem_append] at hd
    rcases hd with hd | hd
    · split at hd
      · have hfixed : lowerChar 'ς' = ['ς'] ∧ lowerChar 'σ' = ['σ'] := by decide +kernel
        cases List.mem_singleton.mp hd
        split
        · exact hfixed.1
        · exact hfixed.2
      · exact lowerChar_of_mem hd
    · exact ih hd

theorem lowerAfter_eq_self (h : ∀ c ∈ text, lowerChar c = [c]) : lowerAfter before text = text := by
  induction text generalizing before with
  | nil => rfl
  | cons c rest ih =>
    rw [List.forall_mem_cons] at h
    have hsigma : c ≠ 'Σ' := by
      rintro rfl
      exact absurd h.1 (by decide +kernel)
    simp [lowerAfter, hsigma, h.1, ih h.2]

theorem upperCase_upperCase (s : String) : upperCase (upperCase s) = upperCase s := by
  simp [upperCase, upperChars_upperChars]

theorem lowerCase_lowerCase (s : String) : lowerCase (lowerCase s) = lowerCase s := by
  have hself : lowerChars (lowerChars s.toList) = lowerChars s.toList :=
    lowerAfter_eq_self fun c hc => lowerChar_of_mem_lowerAfter hc
  simp [lowerCase, hself]

end TableSchema.Unicode
