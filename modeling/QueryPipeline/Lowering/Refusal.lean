import QueryPipeline.Diagnostic
import QueryPipeline.Expr.Display

/-!
# Refusals

Why an operator of a pipeline cannot become a part of a statement: a diagnostic for the author and, when
the reason is an expression without an equivalent in SQL, that expression.
-/

set_option autoImplicit false

namespace QueryPipeline

/-- Why an operator cannot become a part of a statement. -/
structure Refusal where
  diagnostic : Diagnostic
  /-- The expression, with parameters replaced, that has no equivalent in SQL. -/
  withoutEquivalent : Option Expr

namespace Refusal

/-- A refusal that has nothing to do with an expression. -/
def of (d : Diagnostic) : Refusal := ⟨d, none⟩

/-- The refusal of an expression, which is shown to the author as `shown`. -/
def ofExpr (what : String) (shown e : Expr) : Refusal :=
  ⟨.noEquivalent what shown.display, some e⟩

end Refusal

/-- A diagnostic as a refusal. -/
def refuse {α : Type} : Except Diagnostic α → Except Refusal α
  | .ok a => .ok a
  | .error d => .error (.of d)

end QueryPipeline
