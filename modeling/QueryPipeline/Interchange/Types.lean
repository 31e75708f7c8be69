import QueryPipeline.DataType
import QueryPipeline.Json.Decoder
import QueryPipeline.Json.Encoder
import QueryPipeline.Name

/-!
# Interchange of types and names

The interchange forms of kinds, data types, qualified names and member paths. A kind is a bare name
unless it is an entity, and a type that is never absent does not say so.
-/

set_option autoImplicit false

namespace QueryPipeline

open Json (Decoder)

/-- The interchange form of a kind. -/
def DataKind.toJson : DataKind → Json
  | .entity name => Json.case "Entity" (.string name)
  | kind => .string kind.name

/-- Reads a kind. -/
def DataKind.ofJson? : Decoder DataKind := fun j => do
  let c ← j.toCase?
  match c.name, c.content with
  | "Entity", some content => return .entity (← content.toString?)
  | _, _ => j.toBareCase? (simpleKinds.map fun kind => (kind.name, kind))

/-- The interchange form of a data type. -/
def DataType.toJson (type : DataType) : Json :=
  .object (("kind", type.kind.toJson) ::
    if type.nullable then [("nullable", .bool true)] else [])

/-- Reads a data type. -/
def DataType.ofJson? : Decoder DataType := fun j => do
  let r ← j.toRecord? ["kind", "nullable"]
  return ⟨← r.required? "kind" DataKind.ofJson?, ← r.withDefault? "nullable" false Json.toBool?⟩

/-- The interchange form of a qualified name. -/
def QualifiedName.toJson (n : QualifiedName) : Json :=
  .object [("path", Json.ofStrings n.path), ("name", .string n.name)]

/-- Reads a qualified name. -/
def QualifiedName.ofJson? : Decoder QualifiedName := fun j => do
  let r ← j.toRecord? ["path", "name"]
  return ⟨← r.required? "path" (Json.toList? Json.toString?), ← r.required? "name" Json.toString?⟩

/-- The interchange form of a member path. -/
def MemberPath.toJson (p : MemberPath) : Json := Json.ofStrings p.members

/-- Reads a member path. -/
def MemberPath.ofJson? : Decoder MemberPath := fun j =>
  (j.toList? Json.toString?).map MemberPath.mk

end QueryPipeline
