import QueryPipeline.Expr.Basic

/-!
# Substitution

Putting expressions in the places of parameters. The pipeline language has no binders inside of
expressions, so every parameter is free and is replaced; all other parts of an expression stay.
-/

set_option autoImplicit false

namespace QueryPipeline

namespace Expr

mutual

/-- The expression with every parameter replaced by what `f` gives for its name. -/
def mapParams (f : String → Expr) : Expr → Expr
  | .param name => f name
  | .constant value => .constant value
  | .parameter name type => .parameter name type
  | .member receiver name => .member (mapParamsReceiver f receiver) name
  | .shape members => .shape (mapParamsMembers f members)
  | .binary op left right => .binary op (mapParams f left) (mapParams f right)
  | .unary op operand => .unary op (mapParams f operand)
  | .call receiver function args =>
    .call (mapParamsReceiver f receiver) function (mapParamsArgs f args)
  | .conditional test ifTrue ifFalse =>
    .conditional (mapParams f test) (mapParams f ifTrue) (mapParams f ifFalse)
  | .convert operand type => .convert (mapParams f operand) type
  | .entity name path => .entity name path
  | .binding path type => .binding path type
  | .ensureNonEmpty inner => .ensureNonEmpty (mapParams f inner)

/-- Replacement in the value that a member or method belongs to. -/
def mapParamsReceiver (f : String → Expr) : Option Expr → Option Expr
  | none => none
  | some e => some (mapParams f e)

/-- Replacement in every argument. -/
def mapParamsArgs (f : String → Expr) : List Expr → List Expr
  | [] => []
  | e :: rest => mapParams f e :: mapParamsArgs f rest

/-- Replacement in every member. -/
def mapParamsMembers (f : String → Expr) : List ShapeMember → List ShapeMember
  | [] => []
  | ⟨name, e⟩ :: rest => ⟨name, mapParams f e⟩ :: mapParamsMembers f rest

end

/-- The expression with `replacement` in the place of the parameter `param`. -/
def substitute (param : String) (replacement e : Expr) : Expr :=
  e.mapParams fun name => if name = param then replacement else .param name

end Expr

/-- The body of a function with an argument in the place of its parameter. -/
def Lambda.inline (f : Lambda) (argument : Expr) : Expr :=
  Expr.substitute f.param argument f.body

end QueryPipeline
