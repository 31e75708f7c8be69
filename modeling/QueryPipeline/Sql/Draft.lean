import QueryPipeline.Sql.Equality
import QueryPipeline.Sql.FreshName

/-!
# Selects under construction

A draft is a select that operators of a pipeline still add to. Its shape maps the paths of the result
to scalars and whole entities; `Draft.finish` gives each projected scalar a position in the row, and
equal scalars one position together. `Draft.pushDown` makes the draft the source of a new one, whose
shape and orderings refer to the columns of the old one.
-/

set_option autoImplicit false

namespace QueryPipeline.Sql

/-- The columns of an entity, in the order of its properties. -/
structure EntityColumns where
  entity : String
  columns : List (String × Scalar)
deriving DecidableEq

/-- The column of a property. -/
def EntityColumns.column? (e : EntityColumns) (property : String) : Option Scalar :=
  e.columns.lookup property

/-- What a path of the result shape leads to. -/
inductive Projected where
  | scalar (s : Scalar)
  | entity (e : EntityColumns)
deriving DecidableEq

/-- The paths of a result shape and what they lead to. -/
abbrev Shape := List (MemberPath × Projected)

/-- A select under construction. -/
structure Draft where
  tables : List TableSource
  shape : Shape
  predicate : Option Scalar
  orderings : List SortKey
  limit : Option Scalar
  offset : Option Scalar
  distinct : Bool
deriving DecidableEq

instance : Inhabited Draft := ⟨⟨[], [], none, [], none, none, false⟩⟩

/-- The projected columns, in order, and whether each gets a name of its own. -/
structure Projection where
  named : Bool
  columns : List OutputColumn

namespace Projection

/-- The names that columns have already. -/
def names (p : Projection) : List String := p.columns.filterMap (·.aliasName)

/-- The projection with a column for a scalar, and the position of the column. A scalar that is
projected already keeps its position; a new one is named after its own column, if it is one. -/
def add (p : Projection) (s : Scalar) (preferred : String) : Projection × Nat :=
  let s := s.asValueForm
  match p.columns.findIdx? (·.expr = s) with
  | some position => (p, position)
  | none =>
    let aliasName := if p.named then some (freshName p.names (s.ownName?.getD preferred)) else none
    ({ p with columns := p.columns ++ [⟨s, aliasName⟩] }, p.columns.length)

/-- The projection with columns for all properties of an entity, and their positions. -/
def addColumns (p : Projection) : List (String × Scalar) → Projection × List (String × Nat)
  | [] => (p, [])
  | (property, column) :: rest =>
    let (p, position) := p.add column property
    let (p, positions) := p.addColumns rest
    (p, (property, position) :: positions)

/-- The projection with columns for what a path leads to, and their positions. -/
def addProjected (p : Projection) (path : MemberPath) : Projected → Projection × Slot
  | .scalar s =>
    let (p, position) := p.add s (path.last?.getD "c")
    (p, .scalar position)
  | .entity e =>
    let (p, positions) := p.addColumns e.columns
    (p, .entity positions)

/-- The projection with columns for a whole shape, and where each path finds them. -/
def addShape (p : Projection) : Shape → Projection × List (MemberPath × Slot)
  | [] => (p, [])
  | (path, projected) :: rest =>
    let (p, slot) := p.addProjected path projected
    let (p, slots) := p.addShape rest
    (p, (path, slot) :: slots)

/-- The projection with columns for the keys of orderings, and their positions. -/
def addKeys (p : Projection) : List SortKey → Projection × List Nat
  | [] => (p, [])
  | key :: rest =>
    let (p, position) := p.add key.expr "c"
    let (p, positions) := p.addKeys rest
    (p, position :: positions)

end Projection

/-- The alias of a source that a draft was pushed down into. -/
def subqueryAlias : String := "t"

/-- The column of a subquery at a position of its projection. -/
def outerColumn (columns : List OutputColumn) (position : Nat) : Scalar :=
  match columns[position]? with
  | some c => .column subqueryAlias (c.aliasName.getD "") c.expr.type c.expr.mapping
  | none => default

/-- What a path leads to outside of a subquery, from where the subquery holds it. -/
def outerProjected (columns : List OutputColumn) : Projected → Slot → Projected
  | _, .scalar position => .scalar (outerColumn columns position)
  | projected, .entity positions =>
    .entity ⟨match projected with
        | .entity e => e.entity
        | .scalar _ => "",
      positions.map fun (property, position) => (property, outerColumn columns position)⟩

namespace Draft

/-- The columns of an entity from its table. -/
def ofTable (table : TableSource) (entity : EntityColumns) : Draft :=
  { (default : Draft) with tables := [table], shape := [(.root, .entity entity)] }

/-- A single scalar from no table at all. -/
def ofScalar (s : Scalar) : Draft :=
  { (default : Draft) with shape := [(.root, .scalar s)] }

/-- The number of rows is limited, or rows at the front are left out. -/
def isLimited (d : Draft) : Bool := d.limit.isSome || d.offset.isSome

/-- What a path leads to. -/
def projected? (d : Draft) (path : MemberPath) : Option Projected := d.shape.lookup path

/-- The scalar that a path leads to. -/
def scalar? (d : Draft) (path : MemberPath) : Option Scalar :=
  match d.projected? path with
  | some (.scalar s) => some s
  | _ => none

/-- The column of a property of the entity that a path leads to. -/
def property? (d : Draft) (path : MemberPath) (property : String) : Option Scalar :=
  match d.projected? path with
  | some (.entity e) => e.column? property
  | _ => none

/-- The draft with another shape. -/
def project (d : Draft) (shape : Shape) : Draft := { d with shape }

/-- The draft with a condition more; one that is always true adds nothing. -/
def restrict (d : Draft) (condition : Scalar) : Draft :=
  if condition.isTrueConstant then d
  else
    let condition := condition.asConditionForm
    { d with predicate := some (match d.predicate with
        | some known => .conjunction known condition
        | none => condition) }

/-- The draft ordered by a key alone. -/
def orderBy (d : Draft) (key : SortKey) : Draft := { d with orderings := [key] }

/-- The draft with rows that are equal so far ordered by a key, unless they are ordered by it already. -/
def thenBy (d : Draft) (key : SortKey) : Draft :=
  if d.orderings.any (·.expr = key.expr) then d
  else { d with orderings := d.orderings ++ [key] }

/-- The draft in the opposite order. -/
def reverse (d : Draft) : Draft :=
  { d with orderings := d.orderings.map fun key => { key with ascending := !key.ascending } }

/-- The draft without an order. -/
def unordered (d : Draft) : Draft := { d with orderings := [] }

/-- The draft with at most so many rows. -/
def take (d : Draft) (count : Scalar) : Draft := { d with limit := some count }

/-- The draft without so many rows at the front. -/
def skip (d : Draft) (count : Scalar) : Draft := { d with offset := some count }

/-- The draft without repeated rows, which loses its order. -/
def makeDistinct (d : Draft) : Draft := { d with distinct := true, orderings := [] }

/-- The draft as a select with this projection, and with its orderings or without them. -/
def toSelect (d : Draft) (columns : List OutputColumn) (slots : List (MemberPath × Slot))
    (orderings : List SortKey) : Select :=
  ⟨d.tables, columns, slots, d.predicate, orderings, d.limit, d.offset, d.distinct⟩

/-- A new draft that reads its rows from this one. The orderings move to the new draft; the old one only
keeps them where they decide which rows it has. -/
def pushDown (d : Draft) : Draft :=
  let (projection, slots) := (⟨true, []⟩ : Projection).addShape d.shape
  let (projection, positions) := projection.addKeys d.orderings
  let columns := projection.columns
  let inner := d.toSelect columns slots (if d.isLimited then d.orderings else [])
  { (default : Draft) with
    tables := [.subquery inner subqueryAlias]
    shape := (d.shape.zip slots).map fun ((path, projected), (_, slot)) =>
      (path, outerProjected columns projected slot)
    orderings := (d.orderings.zip positions).map fun (key, position) =>
      ⟨outerColumn columns position, key.ascending⟩ }

/-- The draft as a complete select. -/
def finish (d : Draft) : Select :=
  let (projection, slots) := (⟨false, []⟩ : Projection).addShape d.shape
  d.toSelect projection.columns slots d.orderings

end Draft

end QueryPipeline.Sql
