import QueryPipeline.Expr.Reduction
import QueryPipeline.Functions.Basic
import QueryPipeline.Sql.Draft

/-!
# Bodies as scalars

The bodies of the functions in a pipeline become scalars over a draft. The parameter of the function has
been replaced by the shaper of the draft before, so a member of an entity is a column. A body without an
equivalent in SQL becomes nothing; a diagnostic means that a function was called in a way it cannot be.
-/

set_option autoImplicit false

namespace QueryPipeline

open Sql

/-- What bodies become scalars over. -/
structure Scope where
  catalog : Catalog
  functions : FunctionRegistry
  draft : Draft

/-- An unqualified name of a method or member belongs to the kind of its value. -/
def qualify (name : QualifiedName) : Option Scalar → QualifiedName
  | some receiver =>
    if name.path.isEmpty then .owned receiver.type.kind.owner name.name else name
  | none => name

/-- The absence of a value of the type of another scalar. -/
def nullLike (s : Scalar) : Scalar := .constant .null (s.type.withNullable true)

/-- The value in another type. A type of the same kind only changes whether the value may be absent. -/
def convertScalar (catalog : Catalog) (operand : Scalar) (type : DataType) : Option Scalar :=
  if operand.type.kind = type.kind then some { operand with type }
  else catalog.cast? operand type

namespace Scope

/-- Two operands as scalars; an operand that is written as null takes the type of the other one. -/
def pair (left right : Expr) (lowerLeft lowerRight : Answer) :
    Except Diagnostic (Option (Scalar × Scalar)) :=
  match left.isNull, right.isNull with
  | false, true => do return (← lowerLeft).map fun s => (s, nullLike s)
  | true, false => do return (← lowerRight).map fun s => (nullLike s, s)
  | _, _ => do
    let left ← lowerLeft
    let right ← lowerRight
    return left.bind fun l => right.map fun r => (l, r)

mutual

/-- A body as a scalar, in the context where it belongs by nature. -/
def lower (scope : Scope) : Expr → Answer
  | .constant value => .given (.constant value value.type)
  | .parameter name type => .given (.parameter name type)
  | .member none name => scope.functions.member scope.catalog none name
  | .member (some receiver) name =>
    match h : receiver.reduceMembers with
    | .entity _ path => .ok (scope.draft.property? path name.name)
    | .shape members =>
      match hm : findMember? members name.name with
      | some m =>
        have : sizeOf m.expr < 1 + sizeOf receiver := by
          have reduced := receiver.sizeOf_reduceMembers_le
          have found := sizeOf_findMember?_lt hm
          simp only [h, Expr.shape.sizeOf_spec] at reduced
          omega
        scope.lower m.expr
      | none => .unknown
    | _ => do
      match ← scope.lower receiver with
      | some value => scope.functions.member scope.catalog (some value) (qualify name (some value))
      | none => return none
  | .binary op left right =>
    if (op = .eq ∨ op = .ne) ∧ left.isNull != right.isNull then do
      let operand ← if right.isNull then scope.lower left else scope.lower right
      return operand.map (scope.catalog.isNull · (op = .ne))
    else
      match ScalarOp.ofBinaryOp? op with
      | some op => do
        return (← pair left right (scope.lower left) (scope.lower right)).map fun (l, r) =>
          scope.catalog.binary op l r
      | none => .unknown
  | .unary .not operand => do return (← scope.lower operand).map scope.catalog.not
  | .unary .negate operand => do return (← scope.lower operand).map (·.negated)
  | .call none function args => do
    match ← scope.lowerArgs args with
    | some args => scope.functions.method scope.catalog none function args
    | none => return none
  | .call (some receiver) function args => do
    match ← scope.lower receiver with
    | some value =>
      match ← scope.lowerArgs args with
      | some args =>
        scope.functions.method scope.catalog (some value) (qualify function (some value)) args
      | none => return none
    | none => return none
  | .conditional test ifTrue ifFalse => do
    match ← scope.lower test with
    | some test =>
      return (← pair ifTrue ifFalse (scope.lower ifTrue) (scope.lower ifFalse)).map fun (t, f) =>
        scope.catalog.case (test, t) [] (some f)
    | none => return none
  | .convert operand type => do
    return (← scope.lower operand).bind (convertScalar scope.catalog · type)
  | .binding path _ => .ok (scope.draft.scalar? path)
  | .param _ | .shape _ | .entity .. | .ensureNonEmpty _ => .unknown
termination_by e => sizeOf e
decreasing_by
  all_goals simp only [Expr.member.sizeOf_spec, Expr.binary.sizeOf_spec, Expr.unary.sizeOf_spec,
    Expr.call.sizeOf_spec, Expr.conditional.sizeOf_spec, Expr.convert.sizeOf_spec,
    Option.some.sizeOf_spec]
  all_goals omega

/-- Arguments as scalars, if all of them have an equivalent. -/
def lowerArgs (scope : Scope) : List Expr → Except Diagnostic (Option (List Scalar))
  | [] => .ok (some [])
  | e :: rest => do
    match ← scope.lower e with
    | some s => return (← scope.lowerArgs rest).map (s :: ·)
    | none => return none
termination_by es => sizeOf es

end

/-- A body as a scalar where a value is expected, or where a condition is. -/
def lowerIn (scope : Scope) (e : Expr) (asValue : Bool) : Answer := do
  return (← scope.lower e).map fun s => (scope.catalog.resolve s).inContext asValue

/-- A body as a value. -/
def value (scope : Scope) (e : Expr) : Answer := scope.lowerIn e true

/-- A body as a condition. -/
def condition (scope : Scope) (e : Expr) : Answer := scope.lowerIn e false

end Scope

end QueryPipeline
