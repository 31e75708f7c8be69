import QueryPipeline.Lowering.Body
import QueryPipeline.Lowering.Refusal

/-!
# Result shapes

The body of a selector is split in two: the shaper, which keeps the shapes that are written out and has a
placeholder for every leaf, and the shape, which maps the path of every leaf to the scalar or entity it
stands for.
-/

set_option autoImplicit false

namespace QueryPipeline

open Sql

namespace Scope

/-- What a leaf of a result shape becomes under a path. -/
def bindLeaf (scope : Scope) (e : Expr) (path : MemberPath) : Except Refusal (Expr × Shape) :=
  match scope.value e with
  | .ok (some s) => .ok (.binding path s.type, [(path, .scalar s)])
  | .ok none => .error (.ofExpr "projection" e e)
  | .error d => .error (.of d)

/-- What an entity of a result shape becomes under a path; it has to be projected already. -/
def bindEntity (scope : Scope) (entity : String) (source path : MemberPath) :
    Except Refusal (Expr × Shape) :=
  match scope.draft.projected? source with
  | some (.entity columns) => .ok (.entity entity path, [(path, .entity columns)])
  | _ => .error (.of (.bug
      ("no entity " ++ entity ++ " projected under " ++ source.display)))

mutual

/-- The shaper and the shape of a body under a path. -/
def bind (scope : Scope) (e : Expr) (path : MemberPath) : Except Refusal (Expr × Shape) :=
  match h : e.reduceMembers with
  | .shape members => do
    have : sizeOf members < sizeOf e := by
      have reduced := e.sizeOf_reduceMembers_le
      simp only [h, Expr.shape.sizeOf_spec] at reduced
      omega
    let (bound, shape) ← scope.bindMembers (.shape members) members path
    return (.shape bound, shape)
  | .entity entity source => scope.bindEntity entity source path
  | leaf => scope.bindLeaf leaf path
termination_by sizeOf e

/-- The shapers and the shape of some members of the value under a path. -/
def bindMembers (scope : Scope) (whole : Expr) (members : List ShapeMember) (path : MemberPath) :
    Except Refusal (List ShapeMember × Shape) :=
  match members with
  | [] => .ok ([], [])
  | ⟨none, _⟩ :: _ =>
    .error (.of ((Diagnostic.noEquivalent "projection" whole.display).withHint
      "give every member of the shape a name"))
  | ⟨some name, e⟩ :: rest => do
    let (bound, shape) ← scope.bind e (path.append name)
    let (others, shapes) ← scope.bindMembers whole rest path
    return (⟨some name, bound⟩ :: others, shape ++ shapes)
termination_by sizeOf members

end

end Scope

end QueryPipeline
