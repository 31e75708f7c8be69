import QueryPipeline.Expr.Basic
import QueryPipeline.Sql.Draft

/-!
# Shaped queries

A pipeline becomes a select together with a shaper, which says how a result is put together from a row,
and the number of results that the author of the pipeline expects.
-/

set_option autoImplicit false

namespace QueryPipeline

open Sql

/-- How many results are expected. -/
inductive Cardinality where
  | sequence
  /-- One result; it is an error if there is none. -/
  | single
  /-- One result or none. -/
  | singleOrDefault
deriving DecidableEq, Repr

namespace Cardinality

/-- All cardinalities. -/
def all : List Cardinality := [sequence, single, singleOrDefault]

/-- The name of a cardinality. -/
def name : Cardinality → String
  | sequence => "Sequence"
  | single => "Single"
  | singleOrDefault => "SingleOrDefault"

/-- One result, or perhaps none. -/
def one (orDefault : Bool) : Cardinality := if orDefault then singleOrDefault else single

end Cardinality

/-- A select and how results are made out of its rows. -/
structure ShapedQuery where
  select : Select
  shaper : Expr
  cardinality : Cardinality

/-- A shaped query whose select is under construction. -/
structure ShapedDraft where
  draft : Draft
  shaper : Expr
  cardinality : Cardinality

namespace ShapedDraft

/-- The query with a complete select. -/
def finish (q : ShapedDraft) : ShapedQuery := ⟨q.draft.finish, q.shaper, q.cardinality⟩

/-- The query with its draft changed. -/
def mapDraft (q : ShapedDraft) (f : Draft → Draft) : ShapedDraft := { q with draft := f q.draft }

/-- The query whose draft has become the source of a new one where a condition asks for it. -/
def pushDownIf (q : ShapedDraft) (condition : Bool) : ShapedDraft :=
  if condition then q.mapDraft Draft.pushDown else q

/-- The number of rows is limited or repeated rows are left out, so what comes next has to see the rows
that remain. -/
def isClosed (q : ShapedDraft) : Bool := q.draft.isLimited || q.draft.distinct

/-- The query whose draft sees all the rows that remain. -/
def opened (q : ShapedDraft) : ShapedDraft := q.pushDownIf q.isClosed

/-- The query that returns a single scalar over the rows of its draft. -/
def returning (q : ShapedDraft) (s : Scalar) : ShapedDraft :=
  ⟨q.draft.project [(.root, .scalar s)], .binding .root s.type, .single⟩

end ShapedDraft

end QueryPipeline
