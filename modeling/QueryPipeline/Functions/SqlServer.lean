import QueryPipeline.Functions.Basic

/-!
# Conversion to text and full-text search

Two families of functions that only SQL Server has: a value as a text, in a text type that is long
enough for the store type of the value, and the predicates that search the text index of a column.
-/

set_option autoImplicit false

namespace QueryPipeline

open Sql

/-- The store types whose values have a short text, and how long it is. -/
def shortTextLengths : List (String × Nat) :=
  [("int", 11), ("bigint", 20), ("smallint", 6), ("tinyint", 3), ("nchar", 1), ("char", 1),
    ("uniqueidentifier", 36)]

/-- The store types whose values have a text of at most one hundred characters. -/
def longTextTypes : List String :=
  ["date", "datetime", "datetime2", "datetimeoffset", "time", "float", "real", "decimal", "numeric",
    "money", "varbinary", "binary"]

/-- The length of the text of a value in a store type. -/
def textLength? (storeType : String) : Option Nat :=
  let base := Text.trim (String.ofList (storeType.toList.takeWhile (· != '(')))
  match shortTextLengths.lookup base with
  | some length => some length
  | none => if longTextTypes.contains base then some 100 else none

/-- Values as texts. -/
def conversionMethods : FunctionProvider := .ofMethod fun catalog receiver name args =>
  match receiver, args with
  | some value, [] =>
    if name.name != "to_string" then .unknown
    else
      let value := catalog.resolve value
      match value.mapping.bind fun m => textLength? m.storeType with
      | some length =>
        let storeType := Scalar.fragment ("VARCHAR(" ++ toString length ++ ")") .text
        .given (catalog.functionWith "CONVERT" none [storeType, value]
          (DataType.text.withNullable value.type.nullable) (catalog.mapping? .text))
      | none => .unknown
  | _, _ => .unknown

/-- The full-text predicates by the names that pipelines call them. -/
def fullTextPredicates : List (String × String) :=
  [("freetext", "FREETEXT"), ("contains", "CONTAINS")]

/-- The scalar is a column. -/
def Sql.Scalar.isColumn (s : Scalar) : Bool :=
  match s.node with
  | .column .. => true
  | _ => false

/-- The language of a full-text search. -/
def languageTerm? (s : Scalar) : Option Scalar :=
  match s.node with
  | .constant (.integer i) => some (.fragment ("LANGUAGE " ++ toString i.toInt) .int32)
  | _ => none

/-- A full-text search of a column, in a language or in the one of the column. -/
def fullTextSearch (catalog : Catalog) (function : String) (name : QualifiedName)
    (property sought : Scalar) (language : Option Scalar) : Answer :=
  if !property.isColumn then
    .error (.usage name.display "the property argument must be a column of an entity")
  else
    let sought := catalog.resolveFrom property.mapping sought
    let search (terms : List Scalar) : Answer :=
      .given (catalog.functionWith function none (property :: sought :: terms) .bool
        catalog.boolMapping?).asPredicate
    match language with
    | none => search []
    | some language =>
      match languageTerm? language with
      | some term => search [term]
      | none => .error (.usage name.display "the language term must be a constant")

/-- Full-text searches. -/
def fullTextMethods : FunctionProvider := .ofMethod fun catalog receiver name args =>
  if receiver.isSome || name.owner? != some "functions" then .unknown
  else match fullTextPredicates.lookup name.name, args with
    | some function, [property, sought] =>
      fullTextSearch catalog function name property sought none
    | some function, [property, sought, language] =>
      fullTextSearch catalog function name property sought (some language)
    | _, _ => .unknown

end QueryPipeline
