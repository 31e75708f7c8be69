import QueryPipeline.Functions.Basic

/-!
# Geometries

The geometries of SQLite: an item of a collection, counted from zero by the pipeline and from one by the
database, and the number of points of a line.
-/

set_option autoImplicit false

namespace QueryPipeline

open Sql

/-- Items of geometry collections. -/
def collectionMethods : FunctionProvider := .ofMethod fun catalog receiver name args =>
  match receiver, args with
  | some collection, [index] =>
    if name.is "geometry_collection" "get_item" then
      .given (catalog.function "GeometryN" [collection, catalog.add index (catalog.int 1)]
        (.optional .geometry))
    else .unknown
  | _, _ => .unknown

/-- The scalar that is cast, when the scalar is a cast. -/
def Sql.Scalar.withoutCast (s : Scalar) : Scalar :=
  match s.node with
  | .cast operand => operand
  | _ => s

/-- The number of points of a line. -/
def lineMembers : FunctionProvider := .ofMember fun catalog receiver name =>
  match receiver with
  | some line =>
    if name.is "line_string" "count" then
      .given (catalog.function "NumPoints" [line.withoutCast] (integerLike line.withoutCast))
    else .unknown
  | none => .unknown

end QueryPipeline
