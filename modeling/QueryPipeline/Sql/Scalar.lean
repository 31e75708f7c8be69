import QueryPipeline.Expr.Basic
import QueryPipeline.Name
import QueryPipeline.Sql.StoreType

/-!
# Scalars and selects

The statements that pipelines become. A scalar is a typed node of an expression; besides its type it
records whether it is a condition and whether it stands where a value is expected, because some
dialects keep conditions and values apart. A select is a complete query; it stands at the outside of a
statement, as the source of another select, or inside a scalar that asks whether it has rows.
-/

set_option autoImplicit false

namespace QueryPipeline.Sql

/-- The operators between two scalars. -/
inductive ScalarOp where
  | equal
  | notEqual
  | greaterThan
  | greaterThanOrEqual
  | lessThan
  | lessThanOrEqual
  | and
  | or
  | add
  | subtract
  | multiply
  | divide
  | modulo
  | bitAnd
  | bitOr
  | coalesce
deriving DecidableEq, Repr, Inhabited

namespace ScalarOp

/-- All operators. -/
def all : List ScalarOp :=
  [equal, notEqual, greaterThan, greaterThanOrEqual, lessThan, lessThanOrEqual, and, or, add, subtract,
    multiply, divide, modulo, bitAnd, bitOr, coalesce]

/-- The name of an operator. -/
def name : ScalarOp → String
  | equal => "Equal"
  | notEqual => "NotEqual"
  | greaterThan => "GreaterThan"
  | greaterThanOrEqual => "GreaterThanOrEqual"
  | lessThan => "LessThan"
  | lessThanOrEqual => "LessThanOrEqual"
  | and => "AndAlso"
  | or => "OrElse"
  | add => "Add"
  | subtract => "Subtract"
  | multiply => "Multiply"
  | divide => "Divide"
  | modulo => "Modulo"
  | bitAnd => "BitwiseAnd"
  | bitOr => "BitwiseOr"
  | coalesce => "Coalesce"

/-- What stands between the operands, with its blanks. -/
def token : ScalarOp → String
  | equal => " = "
  | notEqual => " <> "
  | greaterThan => " > "
  | greaterThanOrEqual => " >= "
  | lessThan => " < "
  | lessThanOrEqual => " <= "
  | and => " AND "
  | or => " OR "
  | add => " + "
  | subtract => " - "
  | multiply => " * "
  | divide => " / "
  | modulo => " % "
  | bitAnd => " & "
  | bitOr => " | "
  | coalesce => ", "

/-- The operator compares two values. -/
def isComparison : ScalarOp → Bool
  | equal | notEqual | greaterThan | greaterThanOrEqual | lessThan | lessThanOrEqual => true
  | _ => false

/-- The operator joins two conditions. -/
def isLogical : ScalarOp → Bool
  | and | or => true
  | _ => false

/-- The operator of the pipeline language as an operator of a statement, if there is one. -/
def ofBinaryOp? : BinaryOp → Option ScalarOp
  | .eq => some equal
  | .ne => some notEqual
  | .gt => some greaterThan
  | .gte => some greaterThanOrEqual
  | .lt => some lessThan
  | .lte => some lessThanOrEqual
  | .and => some and
  | .or => some or
  | .add => some add
  | .sub => some subtract
  | .mul => some multiply
  | .div => some divide
  | .mod => some modulo
  | .bitAnd => some bitAnd
  | .bitOr => some bitOr
  | .coalesce => some coalesce
  | .xor | .pow | .shl | .shr => none

end ScalarOp

/-- Where a row holds what a path of the result shape leads to. -/
inductive Slot where
  /-- The position of a scalar. -/
  | scalar (position : Nat)
  /-- The positions of the properties of an entity. -/
  | entity (properties : List (String × Nat))
deriving DecidableEq, Repr

mutual

/-- A typed node of an expression. -/
structure Scalar where
  node : Node
  type : DataType
  /-- How the value is stored. Constants and parameters learn it from what they are combined with. -/
  mapping : Option TypeMapping
  isCondition : Bool
  /-- The node stands where a value is expected, and not where a condition is. -/
  asValue : Bool

/-- The forms of an expression. -/
inductive Node where
  /-- A column of the source with the alias `table`. -/
  | column (table name : String)
  | constant (value : Literal)
  /-- A value that is bound to the statement when it runs. -/
  | parameter (name : String)
  | binary (op : ScalarOp) (left right : Scalar)
  | not (operand : Scalar)
  | negate (operand : Scalar)
  | isNull (operand : Scalar) (negated : Bool)
  | function (name : String) (schema : Option String) (receiver : Option Scalar) (args : List Scalar)
  | case (branches : List CaseBranch) (otherwise : Option Scalar)
  /-- Whether a select has rows. -/
  | existsIn (subquery : Select) (negated : Bool)
  | like (subject pattern : Scalar) (escape : Option Scalar)
  /-- The operand in the store type of the node. -/
  | cast (operand : Scalar)
  /-- A piece of a statement that is written as it is. -/
  | fragment (sql : String)

/-- A result of a `CASE` and the condition under which it is taken. -/
structure CaseBranch where
  test : Scalar
  result : Scalar

/-- A complete query. -/
structure Select where
  tables : List TableSource
  /-- The projected scalars, in the order of their positions. -/
  projection : List OutputColumn
  /-- Where a row holds each path of the result shape. -/
  slots : List (MemberPath × Slot)
  predicate : Option Scalar
  orderings : List SortKey
  limit : Option Scalar
  offset : Option Scalar
  distinct : Bool

/-- What a select reads its rows from. -/
inductive TableSource where
  | table (name : String) (schema : Option String) (aliasName : String)
  | subquery (select : Select) (aliasName : String)

/-- A projected scalar, with a name when the select is the source of another one. -/
structure OutputColumn where
  expr : Scalar
  aliasName : Option String

/-- A scalar that rows are ordered by. -/
structure SortKey where
  expr : Scalar
  ascending : Bool

end

/-- The alias that columns of a source are qualified with. -/
def TableSource.aliasName : TableSource → String
  | table _ _ aliasName => aliasName
  | subquery _ aliasName => aliasName

/-- Where a row of a select holds what a path leads to. -/
def Select.slot? (s : Select) (path : MemberPath) : Option Slot := s.slots.lookup path

namespace Node

/-- The name of a form. -/
def name : Node → String
  | column .. => "Column"
  | constant _ => "Constant"
  | parameter _ => "Parameter"
  | binary .. => "Binary"
  | not _ => "Not"
  | negate _ => "Negate"
  | isNull .. => "IsNull"
  | function .. => "Function"
  | case .. => "Case"
  | existsIn .. => "Exists"
  | like .. => "Like"
  | cast _ => "Cast"
  | fragment _ => "Fragment"

/-- The forms that are true, false or unknown by nature. -/
def isConditionForm : Node → Bool
  | binary op _ _ => op.isComparison || op.isLogical
  | not _ | isNull .. | existsIn .. | like .. => true
  | _ => false

end Node

namespace Scalar

/-- A node where it belongs by nature: a condition as a condition, all else as a value. -/
def natural (node : Node) (type : DataType) (mapping : Option TypeMapping) : Scalar :=
  ⟨node, type, mapping, node.isConditionForm, !node.isConditionForm⟩

instance : Inhabited Scalar := ⟨natural (.constant .null) default none⟩

/-- The scalar where a value is expected, or where a condition is. -/
def inContext (s : Scalar) (asValue : Bool) : Scalar := { s with asValue }

/-- The scalar where a value is expected. -/
def asValueForm (s : Scalar) : Scalar := s.inContext true

/-- The scalar where a condition is expected. -/
def asConditionForm (s : Scalar) : Scalar := s.inContext false

/-- A column of a source. -/
def column (table name : String) (type : DataType) (mapping : Option TypeMapping) : Scalar :=
  natural (.column table name) type mapping

/-- Two scalars with an operator between them, each where the operator expects it: operators that join
conditions take conditions and all others take values. -/
def binary (op : ScalarOp) (left right : Scalar) (type : DataType)
    (mapping : Option TypeMapping) : Scalar :=
  natural (.binary op (left.inContext !op.isLogical) (right.inContext !op.isLogical)) type mapping

/-- Both of two conditions. -/
def conjunction (left right : Scalar) : Scalar :=
  binary .and left right .bool (left.mapping <|> right.mapping)

/-- The scalar is the constant `true`. -/
def isTrueConstant (s : Scalar) : Bool :=
  match s.node with
  | .constant (.boolean true) => true
  | _ => false

/-- The scalar is a constant that stands for the absence of a value. -/
def isNullConstant (s : Scalar) : Bool :=
  match s.node with
  | .constant .null => true
  | _ => false

/-- The scalar is a truth value. -/
def isBool (s : Scalar) : Bool := s.type.kind == .bool

/-- A function as a condition, for the functions that are one. -/
def asPredicate (s : Scalar) : Scalar := { s with isCondition := true, asValue := false }

/-- The name that a column has by itself when a subquery projects it. -/
def ownName? (s : Scalar) : Option String :=
  match s.node with
  | .column _ name => some name
  | _ => none

end Scalar

end QueryPipeline.Sql
