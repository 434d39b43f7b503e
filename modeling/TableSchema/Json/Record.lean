import TableSchema.Json

/-!
# Records in JSON

A record is an object, or an array of its fields in their order. An object may hold other members,
but no field twice; an array holds nothing but fields. A choice among words is a text, or an object
whose only member has the word for its key and null for its value.
-/

namespace TableSchema.Json

/-- The values of a key in an object. -/
def valuesOf (key : String) (members : List (String × Json)) : List Json :=
  members.filterMap fun (k, value) => if k = key then some value else none

/-- The value of a key that an object holds at most once. No value is `some none`. -/
def single? (members : List (String × Json)) (key : String) : Option (Option Json) :=
  match valuesOf key members with
  | [] => some none
  | [value] => some (some value)
  | _ => none

/-- The fields of a record by position, those beyond the last item left out. -/
def positional? : (names : List String) → List Json → Option (List (Option Json))
  | [], [] => some []
  | [], _ :: _ => none
  | _ :: names, [] => (positional? names []).map (none :: ·)
  | _ :: names, value :: values => (positional? names values).map (some value :: ·)

/-- The fields of a record, one for each name. -/
def fields? (names : List String) : Json → Option (List (Option Json))
  | object members => names.mapM (single? members)
  | array values => positional? names values
  | _ => none

def word? : Json → Option String
  | string word => some word
  | object [(word, null)] => some word
  | _ => none

def string? : Json → Option String
  | string text => some text
  | _ => none

theorem mem_of_single? {members : List (String × Json)} {key : String} {value : Json}
    (h : single? members key = some (some value)) : (key, value) ∈ members := by
  unfold single? at h
  split at h
  · simp at h
  next v hv =>
    cases h
    have : value ∈ valuesOf key members := by rw [hv]; exact List.mem_singleton.mpr rfl
    obtain ⟨⟨k, v⟩, hm, hk⟩ := List.mem_filterMap.mp this
    dsimp only at hk
    split at hk
    next h => cases hk; cases h; exact hm
    next => simp at hk
  · simp at h

theorem mem_of_positional? {names : List String} {values : List Json}
    {found : List (Option Json)} {value : Json} (h : positional? names values = some found)
    (hv : some value ∈ found) : value ∈ values := by
  fun_induction positional? names values generalizing found with
  | case1 => cases h; simp at hv
  | case2 => simp at h
  | case3 _ names ih =>
    obtain ⟨rest, hr, rfl⟩ := Option.map_eq_some_iff.mp h
    rcases List.mem_cons.mp hv with hv | hv
    · cases hv
    · exact ih hr hv
  | case4 _ names first values ih =>
    obtain ⟨rest, hr, rfl⟩ := Option.map_eq_some_iff.mp h
    rcases List.mem_cons.mp hv with hv | hv
    · cases hv; exact List.mem_cons_self ..
    · exact List.mem_cons_of_mem _ (ih hr hv)

theorem mem_of_mapM_single? {names : List String} {members : List (String × Json)}
    {found : List (Option Json)} {value : Json} (h : names.mapM (single? members) = some found)
    (hv : some value ∈ found) : ∃ key, (key, value) ∈ members := by
  induction names generalizing found with
  | nil => cases h; simp at hv
  | cons name names ih =>
    rw [List.mapM_cons] at h
    simp only [Option.bind_eq_bind, Option.bind_eq_some_iff, Option.pure_def,
      Option.some.injEq] at h
    obtain ⟨first, hf, rest, hr, rfl⟩ := h
    rcases List.mem_cons.mp hv with hv | hv
    · cases hv; exact ⟨name, mem_of_single? hf⟩
    · exact ih hr hv

/-- A field of a record is smaller than the record. -/
theorem sizeOf_lt_of_mem_fields? {names : List String} {json : Json} {found : List (Option Json)}
    {value : Json} (h : fields? names json = some found) (hv : some value ∈ found) :
    sizeOf value < sizeOf json := by
  unfold fields? at h
  split at h
  next members =>
    obtain ⟨key, hm⟩ := mem_of_mapM_single? h hv
    have h1 := List.sizeOf_lt_of_mem hm
    simp only [object.sizeOf_spec]
    simp only [Prod.mk.sizeOf_spec] at h1
    omega
  next values =>
    have h1 := List.sizeOf_lt_of_mem (mem_of_positional? h hv)
    simp only [array.sizeOf_spec]
    omega
  next => simp at h

end TableSchema.Json
