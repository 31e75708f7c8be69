import QueryPipeline.Diagnostic
import QueryPipeline.Expr.Display
import QueryPipeline.Lowering.ShapedQuery

/-!
# Results

The rows that a database returns for a select are put together into results by the shaper. A row lists its
values by position, and the slots of the select say where each path of the shape finds its value. A value
that the database stores otherwise than its type says is brought into the form of the type, and where a
value that is never absent comes back as null, the type has a neutral one.
-/

set_option autoImplicit false

namespace QueryPipeline

open Sql

/-- A value of a result. -/
inductive Value where
  | scalar (value : Literal)
  /-- A shape or entity with its members, in order. -/
  | object (members : List (String × Value))
deriving Repr, Inhabited

namespace Value

/-- The value of a scalar. -/
def asScalar? : Value → Option Literal
  | scalar value => some value
  | object _ => none

/-- The first member with a name. -/
def get? (v : Value) (name : String) : Option Value :=
  match v with
  | scalar _ => none
  | object members => members.lookup name

end Value

/-- The results of a pipeline, by how many of them are expected. -/
inductive QueryResult where
  | sequence (values : List Value)
  | single (value : Value)
  | singleOrDefault (value : Option Value)
deriving Repr

/-- The values of a row, by position. -/
abbrev Row := List Literal

/-- A value of the database in the form of a type: null becomes the neutral value of the type, and a whole
number becomes a truth value or a double where the type asks for one. -/
def coerce (value : Literal) (type : DataType) : Literal :=
  match value with
  | .null => type.neutral
  | .integer i =>
    if type.kind = .bool then .boolean (i != 0)
    else if type.kind.isFloat then .float (.ofInt64 i)
    else value
  | _ => value

/-- The value of a row at a position. -/
def readAt (row : Row) (position : Nat) : Except Diagnostic Literal :=
  match row[position]? with
  | some value => .ok value
  | none => .error (.simple ("result row has " ++ toString row.length ++ " values, but slot "
      ++ toString position ++ " was requested"))

namespace Sql.Select

/-- The position of the scalar that a path leads to. -/
def position (s : Select) (path : MemberPath) : Except Diagnostic Nat :=
  match s.slot? path with
  | some (.scalar position) => .ok position
  | _ => .error (.bug ("no scalar projection at " ++ path.display))

/-- The value of the scalar that a path leads to, as the row holds it. -/
def read (s : Select) (row : Row) (path : MemberPath) : Except Diagnostic Literal := do
  readAt row (← s.position path)

/-- The type of the column at a position. -/
def typeAt (s : Select) (position : Nat) : DataType :=
  match s.projection[position]? with
  | some column => column.expr.type
  | none => default

/-- The properties of an entity, from where a row holds them. -/
def readProperties (s : Select) (row : Row) :
    List (String × Nat) → Except Diagnostic (List (String × Value))
  | [] => .ok []
  | (property, position) :: rest => do
    let value ← readAt row position
    let others ← s.readProperties row rest
    return (property, .scalar (coerce value (s.typeAt position))) :: others

/-- The entity that a path leads to. -/
def readEntity (s : Select) (row : Row) (entity : String) (path : MemberPath) :
    Except Diagnostic Value :=
  match s.slot? path with
  | some (.entity properties) => do return .object (← s.readProperties row properties)
  | _ => .error (.bug ("no entity projection of " ++ entity ++ " at " ++ path.display))

/-- A value that must not be absent is read at this path. -/
def requirePresent (s : Select) (row : Row) : Expr → Except Diagnostic Unit
  | .binding path _ => do
    if (← s.read row path).isNull then .error .noElements else return ()
  | _ => .ok ()

mutual

/-- The value that a shaper puts together from a row. -/
def shape (s : Select) (row : Row) : Expr → Except Diagnostic Value
  | .binding path type => do return .scalar (coerce (← s.read row path) type)
  | .entity name path => s.readEntity row name path
  | .shape members => do return .object (← s.shapeMembers row (.shape members) 0 members)
  | .ensureNonEmpty inner => do
    s.requirePresent row inner
    s.shape row inner
  | .constant value => .ok (.scalar value)
  | e => .error (.bug ("`" ++ e.display ++ "` is not a shaper expression"))

/-- The members of a shape from a row; `index` of them come before these. -/
def shapeMembers (s : Select) (row : Row) (whole : Expr) (index : Nat) :
    List ShapeMember → Except Diagnostic (List (String × Value))
  | [] => .ok []
  | ⟨none, _⟩ :: _ =>
    .error (.bug ("member " ++ toString index ++ " of `" ++ whole.display ++ "` has no name"))
  | ⟨some name, e⟩ :: rest => do
    let value ← s.shape row e
    return (name, value) :: (← s.shapeMembers row whole (index + 1) rest)

end

end Sql.Select

namespace ShapedQuery

/-- The value that the shaper puts together from one row. -/
def valueOf (q : ShapedQuery) (row : Row) : Except Diagnostic Value := q.select.shape row q.shaper

/-- The results from the rows that the database returned. A query with one result only looks at the first
row. -/
def materialize (q : ShapedQuery) (rows : List Row) : Except Diagnostic QueryResult :=
  match q.cardinality, rows with
  | .sequence, rows => do return .sequence (← rows.mapM q.valueOf)
  | .single, row :: _ => do return .single (← q.valueOf row)
  | .single, [] => .error .noElements
  | .singleOrDefault, row :: _ => do return .singleOrDefault (some (← q.valueOf row))
  | .singleOrDefault, [] => .ok (.singleOrDefault none)

end ShapedQuery

end QueryPipeline
