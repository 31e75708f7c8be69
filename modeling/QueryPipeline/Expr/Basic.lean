import QueryPipeline.DataType
import QueryPipeline.Name

/-!
# Expressions of the pipeline language

The bodies of the functions that operators of a pipeline take. Besides what a pipeline may contain,
the type has three forms that only occur in a shaper, the expression that says how a result is put
together from a row: an entity at a place, a scalar at a place, and a value that must not be absent.
-/

set_option autoImplicit false

namespace QueryPipeline

/-- The operators between two operands. -/
inductive BinaryOp where
  | eq
  | ne
  | gt
  | gte
  | lt
  | lte
  | and
  | or
  | add
  | sub
  | mul
  | div
  | mod
  | bitAnd
  | bitOr
  | coalesce
  | xor
  | pow
  | shl
  | shr
deriving DecidableEq, Repr, Inhabited

/-- The sign of an operator. -/
def BinaryOp.token : BinaryOp → String
  | .eq => "=="
  | .ne => "!="
  | .gt => ">"
  | .gte => ">="
  | .lt => "<"
  | .lte => "<="
  | .and => "&&"
  | .or => "||"
  | .add => "+"
  | .sub => "-"
  | .mul => "*"
  | .div => "/"
  | .mod => "%"
  | .bitAnd => "&"
  | .bitOr => "|"
  | .coalesce => "??"
  | .xor => "^"
  | .pow => "**"
  | .shl => "<<"
  | .shr => ">>"

/-- The operators before one operand. -/
inductive UnaryOp where
  | not
  | negate
deriving DecidableEq, Repr, Inhabited

/-- The sign of an operator. -/
def UnaryOp.token : UnaryOp → String
  | .not => "!"
  | .negate => "-"

mutual

/-- An expression of the pipeline language. -/
inductive Expr where
  /-- The parameter of the function around the expression. -/
  | param (name : String)
  | constant (value : Literal)
  /-- A value that is bound to the statement when it runs. -/
  | parameter (name : String) (type : DataType)
  | member (receiver : Option Expr) (name : QualifiedName)
  /-- A shape with these members. -/
  | shape (members : List ShapeMember)
  | binary (op : BinaryOp) (left right : Expr)
  | unary (op : UnaryOp) (operand : Expr)
  | call (receiver : Option Expr) (function : QualifiedName) (args : List Expr)
  | conditional (test ifTrue ifFalse : Expr)
  | convert (operand : Expr) (type : DataType)
  /-- The entity that a row holds at a place. -/
  | entity (entity : String) (path : MemberPath)
  /-- The scalar that a row holds at a place. -/
  | binding (path : MemberPath) (type : DataType)
  /-- A value whose absence means that there was nothing to compute it from. -/
  | ensureNonEmpty (inner : Expr)

/-- A member of a shape. -/
structure ShapeMember where
  /-- A member that is only known by its position has no name. -/
  name : Option String
  expr : Expr

end

instance : Inhabited Expr := ⟨.constant .null⟩

/-- A function of one parameter. -/
structure Lambda where
  param : String
  body : Expr

/-- The function returns its argument. -/
def Lambda.isIdentity (f : Lambda) : Bool :=
  match f.body with
  | .param name => name == f.param
  | _ => false

namespace Expr

/-- The literal that stands for the absence of a value. -/
def isNull : Expr → Bool
  | constant .null => true
  | _ => false

/-- The expression is written with operators, so it needs parentheses as an operand. -/
def isOperator : Expr → Bool
  | binary .. | conditional .. => true
  | _ => false

/-- Access to a member of a value. -/
def access (e : Expr) (name : String) : Expr := member (some e) (.plain name)

/-- A call of a method of a value. -/
def callMethod (e : Expr) (name : String) (args : List Expr) : Expr := call (some e) (.plain name) args

/-- A shape whose members all have names. -/
def shapeOf (members : List (String × Expr)) : Expr :=
  shape (members.map fun (name, e) => ⟨some name, e⟩)

end Expr

end QueryPipeline
