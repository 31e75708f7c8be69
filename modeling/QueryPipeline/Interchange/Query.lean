import QueryPipeline.Interchange.Expr
import QueryPipeline.Query.Basic

/-!
# Interchange of pipelines

An operator names its family and says what it takes; one that takes a single optional function has null
where it has none. How an operator orders and what it does without a row need not be said.
-/

set_option autoImplicit false

namespace QueryPipeline

open Json (Decoder)

/-- The interchange form of a function that may be missing. -/
def optionalLambda (f : Option Lambda) : Json := Json.ofOption Lambda.toJson f

/-- Reads a function that may be missing. -/
def optionalLambda? : Decoder (Option Lambda) := Json.toOption? Lambda.ofJson?

/-- The interchange form of an operator with a predicate that may be missing. -/
def rowToJson (family : String) (predicate : Option Lambda) (orDefault : Bool) : Json :=
  Json.case family
    (.object [("predicate", optionalLambda predicate), ("or_default", .bool orDefault)])

/-- The interchange form of an operator that orders by a key. -/
def keyToJson (family : String) (key : Lambda) (descending : Bool) : Json :=
  Json.case family (.object [("key", key.toJson), ("descending", .bool descending)])

/-- The interchange form of an operator that joins two pipelines. -/
def joinToJson (family : String) (inner : Json) (outerKey innerKey result : Lambda) : Json :=
  Json.case family (.object [("inner", inner), ("outer_key", outerKey.toJson),
    ("inner_key", innerKey.toJson), ("result", result.toJson)])

mutual

/-- The interchange form of an operator. -/
def Operator.toJson : Operator → Json
  | .filter f => Json.case "Where" f.toJson
  | .select f => Json.case "Select" f.toJson
  | .orderBy key descending => keyToJson "OrderBy" key descending
  | .thenBy key descending => keyToJson "ThenBy" key descending
  | .skip count => Json.case "Skip" count.toJson
  | .take count => Json.case "Take" count.toJson
  | .distinct => .string "Distinct"
  | .reverse => .string "Reverse"
  | .any f => Json.case "Any" (optionalLambda f)
  | .all f => Json.case "All" f.toJson
  | .count f => Json.case "Count" (optionalLambda f)
  | .longCount f => Json.case "LongCount" (optionalLambda f)
  | .sum f => Json.case "Sum" (optionalLambda f)
  | .average f => Json.case "Average" (optionalLambda f)
  | .min f => Json.case "Min" (optionalLambda f)
  | .max f => Json.case "Max" (optionalLambda f)
  | .first f orDefault => rowToJson "First" f orDefault
  | .last f orDefault => rowToJson "Last" f orDefault
  | .single f orDefault => rowToJson "Single" f orDefault
  | .elementAt index orDefault =>
    Json.case "ElementAt" (.object [("index", index.toJson), ("or_default", .bool orDefault)])
  | .cast type => Json.case "Cast" type.toJson
  | .ofType type => Json.case "OfType" type.toJson
  | .contains item => Json.case "Contains" item.toJson
  | .defaultIfEmpty value => Json.case "DefaultIfEmpty" (Json.ofOption Expr.toJson value)
  | .concat other => Json.case "Concat" other.toJson
  | .union other => Json.case "Union" other.toJson
  | .intersect other => Json.case "Intersect" other.toJson
  | .except other => Json.case "Except" other.toJson
  | .zip other => Json.case "Zip" other.toJson
  | .groupBy key element =>
    Json.case "GroupBy" (.object [("key", key.toJson), ("element", optionalLambda element)])
  | .join inner outerKey innerKey result => joinToJson "Join" inner.toJson outerKey innerKey result
  | .groupJoin inner outerKey innerKey result =>
    joinToJson "GroupJoin" inner.toJson outerKey innerKey result
  | .selectMany f => Json.case "SelectMany" f.toJson
  | .skipWhile f => Json.case "SkipWhile" f.toJson
  | .takeWhile f => Json.case "TakeWhile" f.toJson

/-- The interchange form of a pipeline. -/
def Query.toJson : Query → Json
  | ⟨source, operators⟩ =>
    .object [("source", .string source), ("operators", .array (operatorsToJson operators))]

/-- The interchange forms of some operators. -/
def operatorsToJson : List Operator → List Json
  | [] => []
  | op :: rest => op.toJson :: operatorsToJson rest

end

/-- Reads a key and the direction it orders in. -/
def readKey : Decoder (Lambda × Bool) := fun j => do
  let r ← j.toRecord? ["key", "descending"]
  return (← r.required? "key" Lambda.ofJson?, ← r.withDefault? "descending" false Json.toBool?)

/-- Reads a predicate that may be missing and what is done without a row. -/
def readRow : Decoder (Option Lambda × Bool) := fun j => do
  let r ← j.toRecord? ["predicate", "or_default"]
  return (← r.optional? "predicate" Lambda.ofJson?,
    ← r.withDefault? "or_default" false Json.toBool?)

/-- What an operator that joins two pipelines takes. -/
structure JoinArguments where
  inner : Query
  outerKey : Lambda
  innerKey : Lambda
  result : Lambda

/-- Reads what an operator that joins two pipelines takes. -/
def readJoin (query : Decoder Query) : Decoder JoinArguments := fun j => do
  let r ← j.toRecord? ["inner", "outer_key", "inner_key", "result"]
  return ⟨← r.required? "inner" query, ← r.required? "outer_key" Lambda.ofJson?,
    ← r.required? "inner_key" Lambda.ofJson?, ← r.required? "result" Lambda.ofJson?⟩

/-- Reads what an operator of a family takes, whose pipelines `query` reads. -/
def Operator.readContent (query : Decoder Query) (family : String) : Decoder Operator := fun j => do
  match family with
  | "Where" => return .filter (← Lambda.ofJson? j)
  | "Select" => return .select (← Lambda.ofJson? j)
  | "OrderBy" =>
    let (key, descending) ← readKey j
    return .orderBy key descending
  | "ThenBy" =>
    let (key, descending) ← readKey j
    return .thenBy key descending
  | "Skip" => return .skip (← Expr.ofJson? j)
  | "Take" => return .take (← Expr.ofJson? j)
  | "Any" => return .any (← optionalLambda? j)
  | "All" => return .all (← Lambda.ofJson? j)
  | "Count" => return .count (← optionalLambda? j)
  | "LongCount" => return .longCount (← optionalLambda? j)
  | "Sum" => return .sum (← optionalLambda? j)
  | "Average" => return .average (← optionalLambda? j)
  | "Min" => return .min (← optionalLambda? j)
  | "Max" => return .max (← optionalLambda? j)
  | "First" =>
    let (predicate, orDefault) ← readRow j
    return .first predicate orDefault
  | "Last" =>
    let (predicate, orDefault) ← readRow j
    return .last predicate orDefault
  | "Single" =>
    let (predicate, orDefault) ← readRow j
    return .single predicate orDefault
  | "ElementAt" =>
    let r ← j.toRecord? ["index", "or_default"]
    return .elementAt (← r.required? "index" Expr.ofJson?)
      (← r.withDefault? "or_default" false Json.toBool?)
  | "Cast" => return .cast (← DataType.ofJson? j)
  | "OfType" => return .ofType (← DataType.ofJson? j)
  | "Contains" => return .contains (← Expr.ofJson? j)
  | "DefaultIfEmpty" => return .defaultIfEmpty (← j.toOption? Expr.ofJson?)
  | "Concat" => return .concat (← query j)
  | "Union" => return .union (← query j)
  | "Intersect" => return .intersect (← query j)
  | "Except" => return .except (← query j)
  | "Zip" => return .zip (← query j)
  | "GroupBy" =>
    let r ← j.toRecord? ["key", "element"]
    return .groupBy (← r.required? "key" Lambda.ofJson?) (← r.optional? "element" Lambda.ofJson?)
  | "Join" =>
    let args ← readJoin query j
    return .join args.inner args.outerKey args.innerKey args.result
  | "GroupJoin" =>
    let args ← readJoin query j
    return .groupJoin args.inner args.outerKey args.innerKey args.result
  | "SelectMany" => return .selectMany (← Lambda.ofJson? j)
  | "SkipWhile" => return .skipWhile (← Lambda.ofJson? j)
  | "TakeWhile" => return .takeWhile (← Lambda.ofJson? j)
  | _ => none

/-- Reads an operator whose pipelines `query` reads. -/
def Operator.readWith (query : Decoder Query) : Decoder Operator := fun j => do
  let c ← j.toCase?
  match c.name with
  | "Distinct" => if c.isBare then some .distinct else none
  | "Reverse" => if c.isBare then some .reverse else none
  | family => Operator.readContent query family (← c.content)

/-- Reads a pipeline that nests less deep than `fuel`. -/
def Query.read : (fuel : Nat) → Decoder Query
  | 0, _ => none
  | fuel + 1, j => do
    let r ← j.toRecord? ["source", "operators"]
    return ⟨← r.required? "source" Json.toString?,
      ← r.withDefault? "operators" [] (Json.toList? (Operator.readWith (read fuel)))⟩

/-- Reads a pipeline. -/
def Query.ofJson? : Decoder Query := fun j => read (j.depth + 1) j

/-- Reads an operator. -/
def Operator.ofJson? : Decoder Operator := Operator.readWith Query.ofJson?

end QueryPipeline
