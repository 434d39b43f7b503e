import TableSchema.BigQuery.Type
import TableSchema.Json.Record

/-!
# Fields of a BigQuery schema

A field list is what BigQuery loads a schema from. A field is written as a JSON object, its
description and its fields only if it has them.
-/

namespace TableSchema.BigQuery

structure Field where
  name : String
  type : FieldType
  mode : Mode
  description : Option String := none
  fields : List Field := []

namespace Field

mutual

def toJson : Field → Json
  | ⟨name, type, mode, description, fields⟩ =>
    .object ([("name", .string name), ("type", .string type.name), ("mode", .string mode.name)] ++
      Json.member? "description" (description.map .string) ++
      if fields.isEmpty then [] else [("fields", .array (listToJson fields))])

def listToJson : List Field → List Json
  | [] => []
  | field :: rest => toJson field :: listToJson rest

end

/-- A description that may be missing or null. -/
def description? : Option Json → Option (Option String)
  | none | some .null => some none
  | some (.string text) => some (some text)
  | _ => none

/-- Reads a field from JSON. -/
def ofJson? (json : Json) : Option Field :=
  match _h : json.fields? ["name", "type", "mode", "description", "fields"] with
  | some [some name, some type, some mode, description, fields] => do
    let name ← name.string?
    let type ← type.word? >>= FieldType.ofName?
    let mode ← mode.word? >>= Mode.ofName?
    let description ← description? description
    let fields ←
      match _hf : fields with
      | none => some []
      | some (.array items) => items.attach.mapM fun ⟨item, _⟩ => ofJson? item
      | _ => none
    return { name, type, mode, description, fields }
  | _ => none
termination_by sizeOf json
decreasing_by
  have hm : some (.array items) ∈ [some name, some type, some mode, description, fields] := by
    simp [_hf]
  have h1 := Json.sizeOf_lt_of_mem_fields? _h hm
  have h2 := List.sizeOf_lt_of_mem ‹item ∈ items›
  simp only [Json.array.sizeOf_spec] at h1
  omega

end Field

end TableSchema.BigQuery
