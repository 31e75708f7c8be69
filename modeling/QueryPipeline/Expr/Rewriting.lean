import QueryPipeline.Diagnostic
import QueryPipeline.Expr.Basic

/-!
# Rewriting

Changing an expression from its outside in. A rewriting says what an expression gives way to; where it says
nothing, the parts of the expression are rewritten and the expression is put together from them again. It may
also refuse an expression, and then nothing is left of the whole.
-/

set_option autoImplicit false

namespace QueryPipeline

/-- What an expression gives way to, or nothing when its parts are to be rewritten. -/
abbrev Rewriting := Expr → Option (Except Diagnostic Expr)

namespace Rewriting

/-- Nothing gives way. -/
def nothing : Rewriting := fun _ => none

/-- A parameter gives way to an expression. -/
def ofParam (param : String) (replacement : Expr) : Rewriting
  | .param name => if name = param then some (.ok replacement) else none
  | _ => none

end Rewriting

mutual

/-- An expression after a rewriting. -/
def Expr.rewrite (r : Rewriting) : Expr → Except Diagnostic Expr
  | .param name => (r (.param name)).getD (.ok (.param name))
  | .constant value => (r (.constant value)).getD (.ok (.constant value))
  | .parameter name type => (r (.parameter name type)).getD (.ok (.parameter name type))
  | .entity name path => (r (.entity name path)).getD (.ok (.entity name path))
  | .binding path type => (r (.binding path type)).getD (.ok (.binding path type))
  | .member receiver name => (r (.member receiver name)).getD do
    return .member (← rewriteReceiver r receiver) name
  | .shape members => (r (.shape members)).getD do return .shape (← rewriteMembers r members)
  | .binary op left right => (r (.binary op left right)).getD do
    let left ← left.rewrite r
    return .binary op left (← right.rewrite r)
  | .unary op operand => (r (.unary op operand)).getD do return .unary op (← operand.rewrite r)
  | .call receiver function args => (r (.call receiver function args)).getD do
    let receiver ← rewriteReceiver r receiver
    return .call receiver function (← rewriteArgs r args)
  | .conditional test ifTrue ifFalse => (r (.conditional test ifTrue ifFalse)).getD do
    let test ← test.rewrite r
    let ifTrue ← ifTrue.rewrite r
    return .conditional test ifTrue (← ifFalse.rewrite r)
  | .convert operand type => (r (.convert operand type)).getD do
    return .convert (← operand.rewrite r) type
  | .ensureNonEmpty inner => (r (.ensureNonEmpty inner)).getD do
    return .ensureNonEmpty (← inner.rewrite r)

/-- The value that a member or method belongs to after a rewriting. -/
def rewriteReceiver (r : Rewriting) : Option Expr → Except Diagnostic (Option Expr)
  | none => .ok none
  | some e => do return some (← e.rewrite r)

/-- Some arguments after a rewriting. -/
def rewriteArgs (r : Rewriting) : List Expr → Except Diagnostic (List Expr)
  | [] => .ok []
  | e :: rest => do
    let e ← e.rewrite r
    return e :: (← rewriteArgs r rest)

/-- Some members after a rewriting. -/
def rewriteMembers (r : Rewriting) : List ShapeMember → Except Diagnostic (List ShapeMember)
  | [] => .ok []
  | ⟨name, e⟩ :: rest => do
    let e ← e.rewrite r
    return ⟨name, e⟩ :: (← rewriteMembers r rest)

end

end QueryPipeline
