import QueryPipeline.Proofs.Closed
import QueryPipeline.Proofs.MemberReduction

/-!
# Literals that expressions lead to

An expression may stand for a literal without being one: a literal can be reached through conversions and signs,
and as a member of a shape that is written out. What accesses lead to is found again when they are followed, and
a shaper that takes the place of a parameter leads to no literal.
-/

set_option autoImplicit false

namespace QueryPipeline

mutual

/-- The accesses `pending`, first access first, lead from an expression to a literal that passes a test. The
test is also given the kinds that the value is converted to on the way, innermost first. Signs are passed only if
`signed` says so, and where the accesses end at a shape, its members are looked at if `inside` says so. -/
def Expr.leadsTo (test : List DataKind → Literal → Bool) (signed inside : Bool) :
    Expr → List DataKind → List String → Bool
  | .constant value, kinds, [] => test kinds value
  | .convert operand type, kinds, [] => operand.leadsTo test signed inside (type.kind :: kinds) []
  | .unary .negate operand, kinds, [] => signed && operand.leadsTo test signed inside kinds []
  | .member (some receiver) name, kinds, pending =>
    receiver.leadsTo test signed inside kinds (name.name :: pending)
  | .shape members, kinds, [] => inside && anyLeadsTo test signed inside members kinds
  | .shape members, kinds, first :: pending => memberLeadsTo test signed inside members kinds first pending
  | _, _, _ => false

/-- The accesses `pending` lead to such a literal from the first member with a name. -/
def memberLeadsTo (test : List DataKind → Literal → Bool) (signed inside : Bool) :
    List ShapeMember → List DataKind → String → List String → Bool
  | [], _, _, _ => false
  | ⟨name, e⟩ :: rest, kinds, first, pending =>
    if name = some first then e.leadsTo test signed inside kinds pending
    else memberLeadsTo test signed inside rest kinds first pending

/-- One of some members leads to such a literal. -/
def anyLeadsTo (test : List DataKind → Literal → Bool) (signed inside : Bool) :
    List ShapeMember → List DataKind → Bool
  | [], _ => false
  | ⟨_, e⟩ :: rest, kinds => e.leadsTo test signed inside kinds [] || anyLeadsTo test signed inside rest kinds

end

namespace Expr

variable {test : List DataKind → Literal → Bool} {signed inside : Bool}

section Forms

variable (kinds : List DataKind)

/-- A parameter is no literal, whatever is accessed in it. -/
theorem leadsTo_param (name : String) (pending : List String) :
    (Expr.param name).leadsTo test signed inside kinds pending = false := rfl

/-- A constant leads to its literal. -/
theorem leadsTo_constant (value : Literal) :
    (Expr.constant value).leadsTo test signed inside kinds [] = test kinds value := rfl

/-- A conversion leads where its operand does, with its kind among those on the way. -/
theorem leadsTo_convert (operand : Expr) (type : DataType) :
    (Expr.convert operand type).leadsTo test signed inside kinds [] =
      operand.leadsTo test signed inside (type.kind :: kinds) [] := rfl

/-- A sign is passed only where signs are. -/
theorem leadsTo_negate (operand : Expr) : (Expr.unary .negate operand).leadsTo test signed inside kinds [] =
    (signed && operand.leadsTo test signed inside kinds []) := rfl

/-- An access leads where its receiver does with one more access to follow. -/
theorem leadsTo_access (receiver : Expr) (name : QualifiedName) (pending : List String) :
    (Expr.member (some receiver) name).leadsTo test signed inside kinds pending =
      receiver.leadsTo test signed inside kinds (name.name :: pending) := rfl

/-- Where accesses end at a shape, one of its members leads on if they are looked at. -/
theorem leadsTo_shape (members : List ShapeMember) :
    (Expr.shape members).leadsTo test signed inside kinds [] =
      (inside && anyLeadsTo test signed inside members kinds) := rfl

/-- Accesses lead from a shape to the member with the name of the first one. -/
theorem leadsTo_shape_cons (members : List ShapeMember) (first : String) (pending : List String) :
    (Expr.shape members).leadsTo test signed inside kinds (first :: pending) =
      memberLeadsTo test signed inside members kinds first pending := rfl

end Forms

section Following

/-- A member that is found by its name leads where its expression does. -/
theorem memberLeadsTo_eq {members : List ShapeMember} {name : String} {m : ShapeMember}
    (h : findMember? members name = some m) (kinds : List DataKind) (pending : List String) :
    memberLeadsTo test signed inside members kinds name pending =
      m.expr.leadsTo test signed inside kinds pending := by
  induction members with
  | nil => cases h
  | cons first rest ih =>
    obtain ⟨other, e⟩ := first
    rw [memberLeadsTo]
    by_cases hname : other = some name
    · have hfound : (⟨other, e⟩ : ShapeMember) = m := by simpa [findMember?, hname] using h
      rw [if_pos hname, ← hfound]
    · have hfound : findMember? rest name = some m := by simpa [findMember?, hname] using h
      rw [if_neg hname, ih hfound]

/-- The literals that expressions lead to by accesses take shapes for records. -/
def leadingLiterals (test : List DataKind → Literal → Bool) (signed inside : Bool) :
    RecordMeaning (List DataKind → List String → Bool) where
  eval e := e.leadsTo test signed inside
  access_congr h name := by
    funext kinds pending
    rw [leadsTo_access, leadsTo_access, h]
  access_shape hm := by
    funext kinds pending
    rw [leadsTo_access, leadsTo_shape_cons, memberLeadsTo_eq hm]

/-- What is left when accesses are followed leads to the same literals. -/
theorem leadsTo_reduceMembers (e : Expr) (kinds : List DataKind) (pending : List String) :
    e.reduceMembers.leadsTo test signed inside kinds pending =
      e.leadsTo test signed inside kinds pending :=
  congrFun (congrFun ((leadingLiterals test signed inside).eval_reduceMembers e) kinds) pending

/-- A member of a shape that is written out leads to a literal where the expression of the member does. -/
theorem leadsTo_member {receiver : Expr} {name : QualifiedName} {members : List ShapeMember}
    {m : ShapeMember} (hr : receiver.reduceMembers = .shape members)
    (hm : findMember? members name.name = some m) (kinds : List DataKind) (pending : List String) :
    (Expr.member (some receiver) name).leadsTo test signed inside kinds pending =
      m.expr.leadsTo test signed inside kinds pending := by
  rw [leadsTo_access, ← leadsTo_reduceMembers, hr, leadsTo_shape_cons, memberLeadsTo_eq hm]

end Following

section Inlining

variable {f : String → Expr}

mutual

/-- Where no expression that takes the place of a parameter leads to a literal, the outcome leads to one where
the expression did before. -/
theorem leadsTo_mapParams
    (hf : ∀ name kinds pending, (f name).leadsTo test signed inside kinds pending = false) :
    ∀ (e : Expr) (kinds : List DataKind) (pending : List String),
      (e.mapParams f).leadsTo test signed inside kinds pending = e.leadsTo test signed inside kinds pending
  | .param name, kinds, pending => by
    rw [mapParams, hf, leadsTo_param]
  | .convert operand type, kinds, [] => by
    rw [mapParams, leadsTo_convert, leadsTo_convert, leadsTo_mapParams hf operand]
  | .unary .negate operand, kinds, [] => by
    rw [mapParams, leadsTo_negate, leadsTo_negate, leadsTo_mapParams hf operand]
  | .member (some receiver) name, kinds, pending => by
    rw [mapParams, mapParamsReceiver, leadsTo_access, leadsTo_access, leadsTo_mapParams hf receiver]
  | .shape members, kinds, [] => by
    rw [mapParams, leadsTo_shape, leadsTo_shape, anyLeadsTo_mapParams hf members]
  | .shape members, kinds, first :: pending => by
    rw [mapParams, leadsTo_shape_cons, leadsTo_shape_cons, memberLeadsTo_mapParams hf members]
  | .convert _ _, _, _ :: _ | .unary .negate _, _, _ :: _ | .unary .not _, _, _ | .member none _, _, _
  | .constant _, _, _ | .parameter _ _, _, _ | .binary _ _ _, _, _ | .call _ _ _, _, _
  | .conditional _ _ _, _, _ | .entity _ _, _, _ | .binding _ _, _, _ | .ensureNonEmpty _, _, _ => rfl

/-- Members that take the place of parameters lead to no other literal than before. -/
theorem memberLeadsTo_mapParams
    (hf : ∀ name kinds pending, (f name).leadsTo test signed inside kinds pending = false) :
    ∀ (members : List ShapeMember) (kinds : List DataKind) (first : String) (pending : List String),
      memberLeadsTo test signed inside (mapParamsMembers f members) kinds first pending =
        memberLeadsTo test signed inside members kinds first pending
  | [], _, _, _ => rfl
  | ⟨name, e⟩ :: rest, kinds, first, pending => by
    rw [mapParamsMembers, memberLeadsTo, memberLeadsTo, leadsTo_mapParams hf e,
      memberLeadsTo_mapParams hf rest]

/-- Members of a shape with others in the place of their parameters lead to no other literal than before. -/
theorem anyLeadsTo_mapParams
    (hf : ∀ name kinds pending, (f name).leadsTo test signed inside kinds pending = false) :
    ∀ (members : List ShapeMember) (kinds : List DataKind),
      anyLeadsTo test signed inside (mapParamsMembers f members) kinds =
        anyLeadsTo test signed inside members kinds
  | [], _ => rfl
  | ⟨_, e⟩ :: rest, kinds => by
    rw [mapParamsMembers, anyLeadsTo, anyLeadsTo, leadsTo_mapParams hf e, anyLeadsTo_mapParams hf rest]

end

end Inlining

section Shapers

mutual

/-- A shaper leads to no literal. -/
theorem leadsTo_of_shaper :
    ∀ (e : Expr) (kinds : List DataKind) (pending : List String),
      e.everywhere Expr.isShaperForm = true → e.leadsTo test signed inside kinds pending = false
  | .shape members, kinds, pending => by
    intro h
    simp only [everywhere, isShaperForm, Bool.true_and] at h
    obtain ⟨hany, hmember⟩ := leadsTo_of_shaperMembers members kinds h
    cases pending with
    | nil => rw [leadsTo_shape, hany, Bool.and_false]
    | cons first pending => rw [leadsTo_shape_cons, hmember]
  | .entity _ _, _, _ | .binding _ _, _, _ | .ensureNonEmpty _, _, _ => fun _ => rfl
  | .param _, _, _ | .constant _, _, _ | .parameter _ _, _, _ | .member _ _, _, _ | .binary _ _ _, _, _
  | .unary _ _, _, _ | .call _ _ _, _, _ | .conditional _ _ _, _, _ | .convert _ _, _, _ => by
    intro h
    cases Expr.everywhere_self h

/-- The members of a shaper lead to no literal. -/
theorem leadsTo_of_shaperMembers :
    ∀ (members : List ShapeMember) (kinds : List DataKind),
      everywhereMembers Expr.isShaperForm members = true →
        anyLeadsTo test signed inside members kinds = false ∧
          ∀ first pending, memberLeadsTo test signed inside members kinds first pending = false
  | [], _ => fun _ => ⟨rfl, fun _ _ => rfl⟩
  | ⟨name, e⟩ :: rest, kinds => by
    intro h
    simp only [everywhereMembers, Bool.and_eq_true] at h
    have he := fun pending => leadsTo_of_shaper e kinds pending h.1
    obtain ⟨hany, hmember⟩ := leadsTo_of_shaperMembers rest kinds h.2
    refine ⟨by rw [anyLeadsTo, he, hany, Bool.or_false], fun first pending => ?_⟩
    rw [memberLeadsTo, he, hmember, ite_self]

end

/-- A shaper that takes the place of a parameter leads to no literal. -/
theorem leadsTo_argument {argument : Expr} (h : argument.everywhere Expr.isShaperForm = true)
    (param name : String) (kinds : List DataKind) (pending : List String) :
    (if name = param then argument else Expr.param name).leadsTo test signed inside kinds pending = false := by
  split
  · exact leadsTo_of_shaper argument kinds pending h
  · exact leadsTo_param kinds name pending

/-- A body with a shaper for its parameter leads to a literal where it did before. -/
theorem leadsTo_inline (f : Lambda) {argument : Expr} (h : argument.everywhere Expr.isShaperForm = true)
    (kinds : List DataKind) (pending : List String) :
    (f.inline argument).leadsTo test signed inside kinds pending =
      f.body.leadsTo test signed inside kinds pending :=
  leadsTo_mapParams (leadsTo_argument h f.param) f.body kinds pending

end Shapers

end Expr

end QueryPipeline
