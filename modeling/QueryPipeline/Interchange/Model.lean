import QueryPipeline.Interchange.Types
import QueryPipeline.Model

/-!
# Interchange of models

The interchange forms of models. Names of tables, schemas, columns and store types that are not given are
left out.
-/

set_option autoImplicit false

namespace QueryPipeline

open Json (Decoder)

/-- A text that may be left out of a record in every form. -/
def optionalText? (r : Json.Record) (name : String) : Option (Option String) :=
  r.withDefault? name none (Json.toOption? Json.toString?)

/-- The interchange form of a property. -/
def Property.toJson (p : Property) : Json :=
  .object (("name", .string p.name) :: Json.optionalField "column" Json.string p.column
    ++ ("ty", p.type.toJson) :: Json.optionalField "store_type" Json.string p.storeType)

/-- Reads a property. -/
def Property.ofJson? : Decoder Property := fun j => do
  let r ← j.toRecord? ["name", "column", "ty", "store_type"]
  return ⟨← r.required? "name" Json.toString?, ← optionalText? r "column",
    ← r.required? "ty" DataType.ofJson?, ← optionalText? r "store_type"⟩

/-- The interchange form of an entity. -/
def EntityType.toJson (e : EntityType) : Json :=
  .object (("name", .string e.name) :: Json.optionalField "table" Json.string e.table
    ++ Json.optionalField "schema" Json.string e.schema
    ++ [("properties", Json.ofList Property.toJson e.properties)])

/-- Reads an entity. -/
def EntityType.ofJson? : Decoder EntityType := fun j => do
  let r ← j.toRecord? ["name", "table", "schema", "properties"]
  return ⟨← r.required? "name" Json.toString?, ← optionalText? r "table",
    ← optionalText? r "schema", ← r.required? "properties" (Json.toList? Property.ofJson?)⟩

/-- The interchange form of a model. -/
def Model.toJson (m : Model) : Json :=
  .object [("entities", Json.ofList EntityType.toJson m.entities)]

/-- Reads a model. -/
def Model.ofJson? : Decoder Model := fun j => do
  let r ← j.toRecord? ["entities"]
  return ⟨← r.withDefault? "entities" [] (Json.toList? EntityType.ofJson?)⟩

end QueryPipeline
