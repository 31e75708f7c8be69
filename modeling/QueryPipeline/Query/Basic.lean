import QueryPipeline.Expr.Basic

/-!
# Pipelines

A pipeline starts from the rows of an entity and applies operators to them one after the other. Some
operators can be written down although no statement of the database expresses them.
-/

set_option autoImplicit false

namespace QueryPipeline

mutual

/-- One step of a pipeline. -/
inductive Operator where
  | filter (predicate : Lambda)
  | select (selector : Lambda)
  | orderBy (key : Lambda) (descending : Bool)
  | thenBy (key : Lambda) (descending : Bool)
  | skip (count : Expr)
  | take (count : Expr)
  | distinct
  | reverse
  | any (predicate : Option Lambda)
  | all (predicate : Lambda)
  | count (predicate : Option Lambda)
  | longCount (predicate : Option Lambda)
  | sum (selector : Option Lambda)
  | average (selector : Option Lambda)
  | min (selector : Option Lambda)
  | max (selector : Option Lambda)
  | first (predicate : Option Lambda) (orDefault : Bool)
  | last (predicate : Option Lambda) (orDefault : Bool)
  | single (predicate : Option Lambda) (orDefault : Bool)
  | elementAt (index : Expr) (orDefault : Bool)
  | cast (type : DataType)
  | ofType (type : DataType)
  | contains (item : Expr)
  | defaultIfEmpty (value : Option Expr)
  | concat (other : Query)
  | union (other : Query)
  | intersect (other : Query)
  | except (other : Query)
  | zip (other : Query)
  | groupBy (key : Lambda) (element : Option Lambda)
  | join (inner : Query) (outerKey innerKey result : Lambda)
  | groupJoin (inner : Query) (outerKey innerKey result : Lambda)
  | selectMany (selector : Lambda)
  | skipWhile (predicate : Lambda)
  | takeWhile (predicate : Lambda)

/-- A pipeline: the entity whose rows it starts from, and its operators, first one first. -/
structure Query where
  source : String
  operators : List Operator

end

instance : Inhabited Query := ⟨⟨"", []⟩⟩

namespace Operator

/-- The family an operator belongs to. -/
def family : Operator → String
  | filter _ => "Where"
  | select _ => "Select"
  | orderBy .. => "OrderBy"
  | thenBy .. => "ThenBy"
  | skip _ => "Skip"
  | take _ => "Take"
  | distinct => "Distinct"
  | reverse => "Reverse"
  | any _ => "Any"
  | all _ => "All"
  | count _ => "Count"
  | longCount _ => "LongCount"
  | sum _ => "Sum"
  | average _ => "Average"
  | min _ => "Min"
  | max _ => "Max"
  | first .. => "First"
  | last .. => "Last"
  | single .. => "Single"
  | elementAt .. => "ElementAt"
  | cast _ => "Cast"
  | ofType _ => "OfType"
  | contains _ => "Contains"
  | defaultIfEmpty _ => "DefaultIfEmpty"
  | concat _ => "Concat"
  | union _ => "Union"
  | intersect _ => "Intersect"
  | except _ => "Except"
  | zip _ => "Zip"
  | groupBy .. => "GroupBy"
  | join .. => "Join"
  | groupJoin .. => "GroupJoin"
  | selectMany _ => "SelectMany"
  | skipWhile _ => "SkipWhile"
  | takeWhile _ => "TakeWhile"

/-- The name of an operator: its family, and how it orders or what it does without a row. -/
def name (op : Operator) : String :=
  match op with
  | orderBy _ true | thenBy _ true => op.family ++ "Descending"
  | first _ true | last _ true | single _ true | elementAt _ true => op.family ++ "OrDefault"
  | _ => op.family

end Operator

namespace Query

/-- The pipeline that returns the rows of an entity. -/
def start (source : String) : Query := ⟨source, []⟩

/-- The pipeline continued by an operator. -/
def andThen (q : Query) (op : Operator) : Query := { q with operators := q.operators ++ [op] }

end Query

end QueryPipeline
