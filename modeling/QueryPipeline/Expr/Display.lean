import QueryPipeline.Expr.Basic

/-!
# Expressions in messages

How an expression is shown to the author of a pipeline. Operands that are themselves written with an
operator stand in parentheses.
-/

set_option autoImplicit false

namespace QueryPipeline

/-- An operand, in parentheses when it is written with an operator. -/
def parenthesized (isOperator : Bool) (text : String) : String :=
  if isOperator then "(" ++ text ++ ")" else text

mutual

/-- The text of an expression. -/
def Expr.display : Expr → String
  | .param name => name
  | .constant value => value.display
  | .parameter name _ => "@" ++ name
  | .member receiver name => displayReceiver receiver ++ name.display
  | .shape members => "new \x7b " ++ displayMembers members ++ " \x7d"
  | .binary op left right =>
    parenthesized left.isOperator left.display ++ " " ++ op.token ++ " "
      ++ parenthesized right.isOperator right.display
  | .unary op operand => op.token ++ parenthesized operand.isOperator operand.display
  | .call receiver function args =>
    displayReceiver receiver ++ function.display ++ "(" ++ displayArgs args ++ ")"
  | .conditional test ifTrue ifFalse =>
    parenthesized test.isOperator test.display ++ " ? " ++ ifTrue.display ++ " : "
      ++ ifFalse.display
  | .convert operand type =>
    "(" ++ type.display ++ ")" ++ parenthesized operand.isOperator operand.display
  | .entity entity path => "entity(" ++ entity ++ ")" ++ path.display
  | .binding path _ => "binding" ++ path.display
  | .ensureNonEmpty inner => "ensure_non_empty(" ++ inner.display ++ ")"

/-- The value that a member or method belongs to, with a point after it. -/
def displayReceiver : Option Expr → String
  | none => ""
  | some e => e.display ++ "."

/-- Arguments with commas between them. -/
def displayArgs : List Expr → String
  | [] => ""
  | [e] => e.display
  | e :: rest => e.display ++ ", " ++ displayArgs rest

/-- Members with commas between them. -/
def displayMembers : List ShapeMember → String
  | [] => ""
  | [⟨name, e⟩] => displayLabel name ++ e.display
  | ⟨name, e⟩ :: rest => displayLabel name ++ e.display ++ ", " ++ displayMembers rest

/-- The name of a member, if it has one, with an equals sign after it. -/
def displayLabel : Option String → String
  | none => ""
  | some name => name ++ " = "

end

end QueryPipeline
