import QueryPipeline.Expr.Substitution
import QueryPipeline.Lowering.Selector
import QueryPipeline.Lowering.ShapedQuery
import QueryPipeline.Model
import QueryPipeline.Query.Basic
import QueryPipeline.Text.Alphabet
import QueryPipeline.Text.Casing

/-!
# Operators on drafts

Every operator of a pipeline changes the draft of a shaped query. An operator that cannot be combined
with the draft as it stands, such as a condition after a limit, first makes the draft the source of a
new one. Operators that return a single value end the pipeline.
-/

set_option autoImplicit false

namespace QueryPipeline

open Sql

/-- What pipelines are lowered with: the entities, the database and its functions. -/
structure Environment where
  model : Model
  dialect : Dialect
  catalog : Catalog
  functions : FunctionRegistry

namespace Environment

/-- Bodies become scalars over the draft of a query. -/
def scope (env : Environment) (q : ShapedDraft) : Scope := ⟨env.catalog, env.functions, q.draft⟩

/-- What a body has become, which must not be nothing. -/
def required (what : String) (shown e : Expr) : Answer → Except Refusal Scalar
  | .ok (some s) => .ok s
  | .ok none => .error (.ofExpr what shown e)
  | .error d => .error (.of d)

/-- The predicate of an operator as a condition. -/
def predicate (env : Environment) (q : ShapedDraft) (f : Lambda) : Except Refusal Scalar :=
  let body := f.inline q.shaper
  required "predicate" f.body body ((env.scope q).condition body)

/-- The key of an ordering as a value. -/
def key (env : Environment) (q : ShapedDraft) (f : Lambda) : Except Refusal Scalar :=
  let body := f.inline q.shaper
  required "ordering key" f.body body ((env.scope q).value body)

/-- A number of rows as a value. -/
def rowCount (env : Environment) (q : ShapedDraft) (e : Expr) : Except Refusal Scalar :=
  required "row count" e e ((env.scope q).value e)

/-- The rows that a predicate holds of. -/
def filter (env : Environment) (q : ShapedDraft) (f : Lambda) : Except Refusal ShapedDraft := do
  let q := q.opened
  let condition ← env.predicate q f
  return q.mapDraft (·.restrict condition)

/-- The rows that a predicate holds of, if there is a predicate. -/
def filterWith (env : Environment) (q : ShapedDraft) : Option Lambda → Except Refusal ShapedDraft
  | some f => env.filter q f
  | none => .ok q

/-- The results of a selector. Repeated rows are left out before the selector is applied. -/
def select (env : Environment) (q : ShapedDraft) (f : Lambda) : Except Refusal ShapedDraft := do
  if f.isIdentity then return q
  else
    let q := q.pushDownIf q.draft.distinct
    let (shaper, shape) ← (env.scope q).bind (f.inline q.shaper) .root
    return { q.mapDraft (·.project shape) with shaper }

/-- The rows in the order of a key, which may only decide between rows that are equal so far. -/
def order (env : Environment) (q : ShapedDraft) (f : Lambda) (descending : Bool)
    (add : Draft → SortKey → Draft) : Except Refusal ShapedDraft := do
  let q := q.opened
  let s ← env.key q f
  return q.mapDraft (add · ⟨s, !descending⟩)

/-- The rows have a member, or have none. -/
def existence (env : Environment) (q : ShapedDraft) (negated : Bool) : ShapedDraft :=
  let draft := q.draft.project []
  let draft := if draft.isLimited then draft else draft.unordered
  let s := (env.catalog.existsIn draft.finish negated).asValueForm
  ⟨.ofScalar s, .binding .root s.type, .single⟩

/-- How many rows there are. -/
def rowTotal (env : Environment) (q : ShapedDraft) (function : String) (type : DataType) :
    ShapedDraft :=
  let q := q.opened.mapDraft Draft.unordered
  q.returning (env.catalog.function function [.fragment "*" type] type)

/-- A value in the store type of another type, which has to have one. -/
def cast (env : Environment) (s : Scalar) (type : DataType) : Except Diagnostic Scalar :=
  match env.catalog.cast? s type with
  | some s => .ok s
  | none => .error (.bug ("no store type to cast to " ++ type.kind.name))

/-- A function over the values of all rows. Single-precision numbers are counted up in double
precision. -/
def aggregateOf (env : Environment) (function : String) (input : Scalar) :
    Except Diagnostic Scalar := do
  if input.type.kind = .float32 then
    let double := DataType.float64.withNullable input.type.nullable
    let value ← env.cast input double
    env.cast (env.catalog.function function [value] double) input.type
  else return env.catalog.function function [input] input.type

/-- The mean of the values of all rows, which is not an integer even if the values are. -/
def averageOf (env : Environment) (input : Scalar) : Except Diagnostic Scalar := do
  if input.type.kind.isInteger then
    let double := DataType.float64.withNullable input.type.nullable
    return env.catalog.function "AVG" [← env.cast input double] double
  else env.aggregateOf "AVG" input

/-- The least or greatest of the values of all rows. -/
def extremeOf (env : Environment) (function : String) (input : Scalar) :
    Except Diagnostic Scalar :=
  .ok (env.catalog.function function [input] input.type)

/-- A single value computed from a scalar of all rows. Where no rows have no value and the scalar is
never absent, an absent result means that there were no rows. -/
def aggregate (env : Environment) (q : ShapedDraft) (op : Operator) (selector : Option Lambda)
    (compute : Scalar → Except Diagnostic Scalar) (emptyHasValue : Bool) :
    Except Refusal ShapedDraft := do
  let q := q.opened
  let q ← match selector with
    | some f => env.select q f
    | none => pure q
  let q := q.mapDraft Draft.unordered
  match q.draft.scalar? .root with
  | none =>
    .error (.of ((Diagnostic.noEquivalent op.name q.shaper.display).withHint
      "select a single scalar value before aggregating"))
  | some s =>
    let input := env.catalog.resolve s
    let result := q.returning (← refuse (compute input))
    if input.type.nullable || emptyHasValue then return result
    else return { result with shaper := .ensureNonEmpty result.shaper }

/-- The first row of those that a predicate holds of. -/
def first (env : Environment) (q : ShapedDraft) (f : Option Lambda) (orDefault : Bool) :
    Except Refusal ShapedDraft := do
  let q ← env.filterWith q f
  let q := q.pushDownIf q.draft.limit.isSome
  return { q.mapDraft (·.take (env.catalog.int 1)) with cardinality := .one orDefault }

/-- The last row of those that a predicate holds of, which is the first in the opposite order. -/
def last (env : Environment) (q : ShapedDraft) (op : Operator) (f : Option Lambda)
    (orDefault : Bool) : Except Refusal ShapedDraft := do
  let q ← env.filterWith q f
  let q := q.pushDownIf q.draft.isLimited
  if q.draft.orderings.isEmpty then
    .error (.of ((Diagnostic.simple ("`" ++ op.name ++ "` requires an ordered sequence")).withHint
      "add an `OrderBy` before it"))
  else
    return { q.mapDraft (fun d => d.reverse.take (env.catalog.int 1)) with
      cardinality := .one orDefault }

/-- The query after one more operator. -/
def apply (env : Environment) (q : ShapedDraft) (op : Operator) : Except Refusal ShapedDraft :=
  match op with
  | .filter f => env.filter q f
  | .select f => env.select q f
  | .orderBy f descending => env.order q f descending Draft.orderBy
  | .thenBy f descending => env.order q f descending Draft.thenBy
  | .skip count => do
    let q := q.opened
    let s ← env.rowCount q count
    return q.mapDraft (·.skip s)
  | .take count => do
    let q := q.pushDownIf q.draft.limit.isSome
    let s ← env.rowCount q count
    return q.mapDraft (·.take s)
  | .distinct => .ok ((q.pushDownIf q.draft.isLimited).mapDraft Draft.makeDistinct)
  | .any f => do return env.existence (← env.filterWith q f) false
  | .all f => do
    let q := q.opened
    let condition ← env.predicate q f
    return env.existence (q.mapDraft (·.restrict (env.catalog.not condition))) true
  | .count f => do return env.rowTotal (← env.filterWith q f) "COUNT" .int32
  | .longCount f => do
    return env.rowTotal (← env.filterWith q f) env.dialect.longCountFunction .int64
  | .sum f => env.aggregate q op f (env.aggregateOf "SUM") true
  | .average f => env.aggregate q op f env.averageOf false
  | .min f => env.aggregate q op f (env.extremeOf "MIN") false
  | .max f => env.aggregate q op f (env.extremeOf "MAX") false
  | .first f orDefault | .single f orDefault => env.first q f orDefault
  | .last f orDefault => env.last q op f orDefault
  | .reverse | .elementAt .. | .cast _ | .ofType _ | .contains _ | .defaultIfEmpty _ | .concat _
  | .union _ | .intersect _ | .except _ | .zip _ | .groupBy .. | .join .. | .groupJoin ..
  | .selectMany _ | .skipWhile _ | .takeWhile _ => .error (.of (.unsupported op.name))

/-- The query after all of some operators. None may follow one that returns a single value. -/
def applyAll (env : Environment) (q : ShapedDraft) : List Operator → Except Refusal ShapedDraft
  | [] => .ok q
  | op :: rest =>
    if q.cardinality = .sequence then do
      let q ← env.apply q op
      env.applyAll q rest
    else .error (.of (.simple
      ("`" ++ op.name ++ "` cannot follow an operator that returns a single value")))

/-- The operators that are reached before the first refusal, which is that of the last one of them. -/
def reached (env : Environment) (q : ShapedDraft) : List Operator → List Operator
  | [] => []
  | op :: rest =>
    if q.cardinality = .sequence then
      op :: (match env.apply q op with
        | .ok q => env.reached q rest
        | .error _ => [])
    else []

end Environment

/-- The alias of a table: the first letter of its name in lower case. -/
def tableAlias (table : String) : String :=
  match table.toList.find? Text.isAlphabetic with
  | some c => String.ofList (Text.lowercase c)
  | none => "t"

namespace Environment

/-- The column of a property of an entity. -/
def propertyColumn (env : Environment) (aliasName : String) (p : Property) : Scalar :=
  let mapping := env.catalog.mapping? p.type.kind
  let mapping := match p.storeType with
    | some storeType => mapping.map (·.withStoreType storeType)
    | none => mapping
  .column aliasName p.columnName p.type mapping

/-- The query that returns the rows of an entity. -/
def start (env : Environment) (source : String) : Except Refusal ShapedDraft :=
  match env.model.findEntity? source with
  | none => .error (.of (.notFound source "entity"))
  | some e =>
    let aliasName := tableAlias e.tableName
    let columns := e.properties.map fun p => (p.name, env.propertyColumn aliasName p)
    .ok ⟨.ofTable (.table e.tableName e.schema aliasName) ⟨e.name, columns⟩, .entity e.name .root,
      .sequence⟩

/-- A pipeline as a shaped query. -/
def lower (env : Environment) (q : Query) : Except Refusal ShapedQuery := do
  let start ← env.start q.source
  return (← env.applyAll start q.operators).finish

/-- The operators of a pipeline that are reached before the first refusal. -/
def reachedOperators (env : Environment) (q : Query) : List Operator :=
  match env.start q.source with
  | .ok start => env.reached start q.operators
  | .error _ => []

end Environment

end QueryPipeline
