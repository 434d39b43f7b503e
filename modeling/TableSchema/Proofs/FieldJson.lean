import Mathlib.Data.List.Perm.Basic
import Mathlib.Logic.Relation
import TableSchema.BigQuery.Field

/-!
# Fields in JSON and back

What is written for a field reads as that field, at any depth and with any description, the empty
one included. The JSON of a field may have other members, in any order, a description that is null
and a list without fields; none of this makes a difference, so what is written for a field that was
read is its plainest form.
-/

namespace TableSchema

-- ---------------------------------------------------------------------------
-- Members of objects
-- ---------------------------------------------------------------------------

namespace Json

variable {members others : List (String × Json)} {key other : String} {value : Json}

theorem single?_cons_of_ne (h : other ≠ key) :
    single? ((other, value) :: members) key = single? members key := by
  simp [single?, valuesOf, h]

theorem single?_cons_self_iff {found : Option Json} :
    single? ((key, value) :: members) key = some found ↔
      single? members key = some none ∧ found = some value := by
  have hvalues : valuesOf key ((key, value) :: members) = value :: valuesOf key members := by
    simp [valuesOf]
  rw [single?, single?, hvalues]
  cases valuesOf key members with
  | nil => simp [eq_comm]
  | cons first rest => cases rest <;> simp

theorem single?_perm (h : members.Perm others) (key : String) :
    single? members key = single? others key := by
  have hvalues : (valuesOf key members).Perm (valuesOf key others) := h.filterMap _
  rw [single?, single?]
  generalize valuesOf key members = l at hvalues
  generalize valuesOf key others = m at hvalues
  match l, m with
  | [], m => rw [hvalues.nil_eq]
  | [value], m => rw [hvalues.singleton_eq]
  | _ :: _ :: _, [] => exact absurd hvalues.length_eq (by simp)
  | _ :: _ :: _, [_] => exact absurd hvalues.length_eq (by simp)
  | _ :: _ :: _, _ :: _ :: _ => rfl

end Json

namespace BigQuery.Field

open Json (single?)

-- ---------------------------------------------------------------------------
-- What a field is read from
-- ---------------------------------------------------------------------------

/-- The keys of a field. -/
def keys : List String := ["name", "type", "mode", "description", "fields"]

/-- A list of fields that may be missing. -/
def items? : Option Json → Option (List Field)
  | none => some []
  | some (.array items) => items.mapM ofJson?
  | _ => none

/-- A field from the values of its keys. -/
def ofValues? : List (Option Json) → Option Field
  | [some name, some type, some mode, description, fields] => do
    let name ← name.string?
    let type ← type.word? >>= FieldType.ofName?
    let mode ← mode.word? >>= Mode.ofName?
    let description ← description? description
    let fields ← items? fields
    return { name, type, mode, description, fields }
  | _ => none

theorem ofJson?_eq (json : Json) : ofJson? json = json.fields? keys >>= ofValues? := by
  rw [ofJson?]
  split
  next name type mode description fields h =>
    simp only [keys, h, ofValues?, Option.bind_eq_bind, Option.bind_some]
    split <;> simp [items?]
  next h =>
    cases hvalues : json.fields? keys with
    | none => rfl
    | some values =>
      rw [Option.bind_eq_bind, Option.bind_some, ofValues?]
      rintro name type mode description fields rfl
      exact h name type mode description fields hvalues

/-- What the values of its keys say of a field. -/
structure Reads (field : Field) (name type mode : Json) (description fields : Option Json) :
    Prop where
  name : name.string? = some field.name
  type : type.word? >>= FieldType.ofName? = some field.type
  mode : mode.word? >>= Mode.ofName? = some field.mode
  description : description? description = some field.description
  fields : items? fields = some field.fields

theorem ofJson?_eq_some_iff {json : Json} {field : Field} :
    ofJson? json = some field ↔ ∃ name type mode description fields,
      json.fields? keys = some [some name, some type, some mode, description, fields] ∧
        field.Reads name type mode description fields := by
  rw [ofJson?_eq, Option.bind_eq_bind, Option.bind_eq_some_iff]
  constructor
  · rintro ⟨values, hvalues, hread⟩
    unfold ofValues? at hread
    split at hread
    next name type mode description fields =>
      simp only [Option.bind_eq_bind, Option.bind_eq_some_iff] at hread
      obtain ⟨_, hname, _, htype, _, hmode, _, hdescription, _, hfields, hread⟩ := hread
      cases hread
      refine ⟨name, type, mode, description, fields, hvalues, hname, ?_, ?_, hdescription, hfields⟩
      · exact Option.bind_eq_some_iff.mpr htype
      · exact Option.bind_eq_some_iff.mpr hmode
    next => cases hread
  · rintro ⟨name, type, mode, description, fields, hvalues, h⟩
    refine ⟨_, hvalues, ?_⟩
    cases field
    simp [ofValues?, h.name, h.type, h.mode, h.description, h.fields]

section
variable {members others : List (String × Json)} {name type mode description fields : Option Json}
  {value : Json}

theorem fields?_object_iff :
    (Json.object members).fields? keys = some [name, type, mode, description, fields] ↔
      single? members "name" = some name ∧ single? members "type" = some type ∧
        single? members "mode" = some mode ∧ single? members "description" = some description ∧
          single? members "fields" = some fields := by
  simp [Json.fields?, keys, List.mapM_cons, Option.bind_eq_some_iff]

theorem fields?_cons_description_iff :
    (Json.object (("description", value) :: members)).fields? keys =
        some [name, type, mode, description, fields] ↔
      (Json.object members).fields? keys = some [name, type, mode, none, fields] ∧
        description = some value := by
  simp [fields?_object_iff, Json.single?_cons_self_iff, Json.single?_cons_of_ne, and_assoc,
    and_left_comm, and_comm]

theorem fields?_cons_fields_iff :
    (Json.object (("fields", value) :: members)).fields? keys =
        some [name, type, mode, description, fields] ↔
      (Json.object members).fields? keys = some [name, type, mode, description, none] ∧
        fields = some value := by
  simp [fields?_object_iff, Json.single?_cons_self_iff, Json.single?_cons_of_ne, and_assoc]

/-- Objects with the same values under the keys of a field are the same field. -/
theorem ofJson?_object_congr (h : ∀ key ∈ keys, single? members key = single? others key) :
    ofJson? (.object members) = ofJson? (.object others) := by
  simp only [keys, List.forall_mem_cons] at h
  obtain ⟨hname, htype, hmode, hdescription, hfields, -⟩ := h
  simp [ofJson?_eq, Json.fields?, keys, List.mapM_cons, hname, htype, hmode, hdescription, hfields]

end

-- ---------------------------------------------------------------------------
-- What is written is read
-- ---------------------------------------------------------------------------

/-- The keys under which a field is written. -/
theorem toJson_eq_object (field : Field) :
    ∃ members, field.toJson = .object members ∧ members.map (·.1) =
      ["name", "type", "mode"] ++ (if field.description.isSome then ["description"] else []) ++
        if field.fields.isEmpty then [] else ["fields"] := by
  obtain ⟨name, type, mode, description, fields⟩ := field
  rw [toJson]
  refine ⟨_, rfl, ?_⟩
  cases description <;> cases fields <;> rfl

mutual

theorem ofJson?_toJson : ∀ field : Field, ofJson? field.toJson = some field
  | ⟨name, type, mode, description, fields⟩ => by
    rw [toJson, ofJson?_eq_some_iff]
    refine ⟨.string name, .string type.name, .string mode.name, description.map .string,
      if fields.isEmpty then none else some (.array (listToJson fields)), ?_, rfl, ?_, ?_, ?_, ?_⟩
    · rw [fields?_object_iff]
      cases description <;> cases fields <;> simp [Json.member?, single?, Json.valuesOf]
    · exact FieldType.ofName?_name type
    · exact Mode.ofName?_name mode
    · cases description <;> rfl
    · cases fields with
      | nil => rfl
      | cons first rest => exact mapM_listToJson (first :: rest)

theorem mapM_listToJson : ∀ fields : List Field, (listToJson fields).mapM ofJson? = some fields
  | [] => rfl
  | field :: rest => by
    rw [listToJson, List.mapM_cons, ofJson?_toJson field, mapM_listToJson rest]
    rfl

end

-- ---------------------------------------------------------------------------
-- Differences that make none
-- ---------------------------------------------------------------------------

/-- One thing less in the JSON of a field, or its members in another order, there or in one of the
fields inside it. -/
inductive Trims : Json → Json → Prop
  | reorder (h : members.Perm others) : Trims (.object members) (.object others)
  | unknown (h : key ∉ keys) (value : Json) (members : List (String × Json)) :
      Trims (.object ((key, value) :: members)) (.object members)
  | description (members : List (String × Json)) :
      Trims (.object (("description", .null) :: members)) (.object members)
  | fields (members : List (String × Json)) :
      Trims (.object (("fields", .array []) :: members)) (.object members)
  | inObject (h : Trims item other) (before after : List Json) (members : List (String × Json)) :
      Trims (.object (("fields", .array (before ++ item :: after)) :: members))
        (.object (("fields", .array (before ++ other :: after)) :: members))
  | inArray (h : Trims item other) (before after : List Json)
      (name type mode description : Json) :
      Trims (.array [name, type, mode, description, .array (before ++ item :: after)])
        (.array [name, type, mode, description, .array (before ++ other :: after)])

theorem items?_replace {item other : Json} {before after : List Json} {fields : List Field}
    (h : ∀ ⦃field⦄, ofJson? item = some field → ofJson? other = some field)
    (hread : items? (some (.array (before ++ item :: after))) = some fields) :
    items? (some (.array (before ++ other :: after))) = some fields := by
  simp only [items?, List.mapM_append, List.mapM_cons, Option.bind_eq_bind,
    Option.bind_eq_some_iff] at hread ⊢
  obtain ⟨first, hbefore, _, ⟨field, hitem, hrest⟩, heq⟩ := hread
  exact ⟨first, hbefore, _, ⟨field, h hitem, hrest⟩, heq⟩

theorem ofJson?_of_trims {json other : Json} {field : Field} (h : Trims json other)
    (hread : ofJson? json = some field) : ofJson? other = some field := by
  induction h generalizing field with
  | reorder h =>
    rw [← hread]
    exact ofJson?_object_congr fun key _ => (Json.single?_perm h key).symm
  | unknown h value members =>
    rw [← hread]
    refine ofJson?_object_congr fun key hkey => (Json.single?_cons_of_ne ?_).symm
    rintro rfl
    exact h hkey
  | description members =>
    rw [ofJson?_eq_some_iff] at hread ⊢
    obtain ⟨name, type, mode, _, fields, hvalues, h⟩ := hread
    obtain ⟨hrest, rfl⟩ := fields?_cons_description_iff.mp hvalues
    exact ⟨name, type, mode, none, fields, hrest, { h with description := h.description }⟩
  | fields members =>
    rw [ofJson?_eq_some_iff] at hread ⊢
    obtain ⟨name, type, mode, description, _, hvalues, h⟩ := hread
    obtain ⟨hrest, rfl⟩ := fields?_cons_fields_iff.mp hvalues
    exact ⟨name, type, mode, description, none, hrest, { h with fields := h.fields }⟩
  | inObject _ before after members ih =>
    rw [ofJson?_eq_some_iff] at hread ⊢
    obtain ⟨name, type, mode, description, _, hvalues, h⟩ := hread
    obtain ⟨hrest, rfl⟩ := fields?_cons_fields_iff.mp hvalues
    exact ⟨name, type, mode, description, _, fields?_cons_fields_iff.mpr ⟨hrest, rfl⟩,
      { h with fields := items?_replace (fun _ => ih) h.fields }⟩
  | inArray _ before after name type mode description ih =>
    rw [ofJson?_eq_some_iff] at hread ⊢
    obtain ⟨_, _, _, _, _, hvalues, h⟩ := hread
    cases hvalues
    exact ⟨name, type, mode, description, _, rfl,
      { h with fields := items?_replace (fun _ => ih) h.fields }⟩

-- ---------------------------------------------------------------------------
-- Writing and reading
-- ---------------------------------------------------------------------------

/-- Nothing of a field is lost in JSON: it is read back from what is written for it. JSON that is
read as a field is read as the same one after it was written again, and without members, nulls and
empty lists that say nothing, at any depth and in any order. -/
theorem json_lossless :
    (∀ field : Field, ofJson? field.toJson = some field ∧
      ∃ members, field.toJson = .object members ∧ members.map (·.1) =
        ["name", "type", "mode"] ++ (if field.description.isSome then ["description"] else []) ++
          if field.fields.isEmpty then [] else ["fields"]) ∧
    (∀ json plain, (ofJson? json).map toJson = some plain →
      (ofJson? plain).map toJson = some plain) ∧
    ∀ json field, ofJson? json = some field → ofJson? field.toJson = some field ∧
      ∀ other, Relation.ReflTransGen Trims json other → ofJson? other = some field := by
  refine ⟨fun field => ⟨ofJson?_toJson field, toJson_eq_object field⟩, ?_, ?_⟩
  · intro json plain h
    obtain ⟨field, -, rfl⟩ := Option.map_eq_some_iff.mp h
    rw [ofJson?_toJson, Option.map_some]
  · intro json field hread
    refine ⟨ofJson?_toJson field, fun other h => ?_⟩
    induction h with
    | refl => exact hread
    | tail _ hstep ih => exact ofJson?_of_trims hstep ih

/-- An unknown member inside a field and a null beside it. -/
theorem json_lossless_of_unknown :
    let item : List (String × Json) :=
      [("name", .string "b"), ("mode", .string "NULLABLE"), ("type", .string "STRING")]
    let record : List (String × Json) :=
      [("type", .string "RECORD"), ("mode", .string "REPEATED"), ("name", .string "a")]
    let field : Field :=
      { name := "a"
        type := .record
        mode := .repeated
        fields := [{ name := "b", type := .string, mode := .nullable }] }
    ofJson? (.object (("fields", .array [.object (("x", .nat 1) :: item)]) ::
        ("description", .null) :: record)) = some field ∧
      ofJson? (.object (("fields", .array [.object item]) :: record)) = some field := by
  intro item record field
  have hread : ofJson? (.object (("fields", .array [.object (("x", .nat 1) :: item)]) ::
      ("description", .null) :: record)) = some field := by cbv
  refine ⟨hread, (json_lossless.2.2 _ _ hread).2 _ ?_⟩
  have hunknown : Trims (.object (("x", .nat 1) :: item)) (.object item) :=
    .unknown (by decide) (.nat 1) item
  exact .trans (.single (hunknown.inObject [] [] _))
    (.trans (.single (.reorder (.swap ..))) (.single (.description _)))

end BigQuery.Field

end TableSchema
