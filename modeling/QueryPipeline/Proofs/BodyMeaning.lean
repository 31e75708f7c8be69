import QueryPipeline.Proofs.Evaluation
import QueryPipeline.Proofs.Lowered
import QueryPipeline.Proofs.Meaning
import QueryPipeline.Proofs.MemberReduction
import QueryPipeline.Proofs.Shaper

/-!
# Bodies keep their meaning

A body with a shaper in the place of its parameter means what the body makes of what the shaper means, and
following members of shapes that are written out does not change a meaning. On this rest the two facts that
operators need: the scalar that a body becomes has the value that the body means, and the shaper that a
selector becomes means, over the new shape, what the selector means over the old one.
-/

set_option autoImplicit false

namespace QueryPipeline

open Sql

namespace Expr

variable {V : Type} {I : Interpretation V} {param : String → Datum V} {leaf : MemberPath → Datum V}

mutual

/-- An expression with others in the place of its parameters means what it means when the parameters mean
what the others do. -/
theorem meaning_mapParams {f : String → Expr} (hf : ∀ name, (f name).isNull = false) :
    ∀ e : Expr, (e.mapParams f).meaning I param leaf =
      e.meaning I (fun name => (f name).meaning I param leaf) leaf
  | .param _ | .constant _ | .parameter _ _ | .entity _ _ | .binding _ _ | .call _ _ _ | .convert _ _
  | .member none _ => by
    simp only [mapParams, mapParamsReceiver, meaning]
  | .member (some receiver) _ => by
    simp only [mapParams, mapParamsReceiver, meaning, meaning_mapParams hf receiver]
  | .shape members => by
    simp only [mapParams, meaning, membersMeaning_mapParams hf members]
  | .binary _ left right => by
    simp only [mapParams, meaning, isNull_mapParams hf, meaning_mapParams hf left,
      meaning_mapParams hf right]
  | .unary .not operand | .unary .negate operand | .ensureNonEmpty operand => by
    simp only [mapParams, meaning, meaning_mapParams hf operand]
  | .conditional test ifTrue ifFalse => by
    simp only [mapParams, meaning, meaning_mapParams hf test, meaning_mapParams hf ifTrue,
      meaning_mapParams hf ifFalse]

/-- Members of a shape with others in the place of their parameters mean what they mean when the parameters mean
what the others do. -/
theorem membersMeaning_mapParams {f : String → Expr} (hf : ∀ name, (f name).isNull = false) :
    ∀ ms : List ShapeMember, membersMeaning I param leaf (mapParamsMembers f ms) =
      membersMeaning I (fun name => (f name).meaning I param leaf) leaf ms
  | [] => rfl
  | ⟨some _, e⟩ :: rest => by
    simp only [mapParamsMembers, membersMeaning, e.meaning_mapParams hf,
      membersMeaning_mapParams hf rest]
  | ⟨none, _⟩ :: rest => by
    simp only [mapParamsMembers, membersMeaning, membersMeaning_mapParams hf rest]

end

mutual

/-- What a pipeline may contain means the same whatever the places of a row hold. -/
theorem meaning_of_source (leaf' : MemberPath → Datum V) :
    ∀ e : Expr, e.isSource = true → e.meaning I param leaf = e.meaning I param leaf'
  | .param _ | .constant _ | .parameter _ _ | .call _ _ _ | .convert _ _ | .member none _ => by
    intro _
    simp only [meaning]
  | .entity _ _ | .binding _ _ | .ensureNonEmpty _ => by
    intro h
    simp [isSource, everywhere, isCompilerForm] at h
  | .member (some receiver) _ => by
    intro h
    simp only [isSource, everywhere, everywhereReceiver, Bool.and_eq_true] at h
    simp only [meaning, meaning_of_source leaf' receiver h.2]
  | .shape members => by
    intro h
    simp only [isSource, everywhere, Bool.and_eq_true] at h
    simp only [meaning, membersMeaning_of_source leaf' members h.2]
  | .binary _ left right => by
    intro h
    simp only [isSource, everywhere, Bool.and_eq_true] at h
    simp only [meaning, meaning_of_source leaf' left h.1.2, meaning_of_source leaf' right h.2]
  | .unary .not operand | .unary .negate operand => by
    intro h
    simp only [isSource, everywhere, Bool.and_eq_true] at h
    simp only [meaning, meaning_of_source leaf' operand h.2]
  | .conditional test ifTrue ifFalse => by
    intro h
    simp only [isSource, everywhere, Bool.and_eq_true] at h
    simp only [meaning, meaning_of_source leaf' test h.1.1.2, meaning_of_source leaf' ifTrue h.1.2,
      meaning_of_source leaf' ifFalse h.2]

/-- Members that a pipeline may contain mean the same whatever the places of a row hold. -/
theorem membersMeaning_of_source (leaf' : MemberPath → Datum V) :
    ∀ ms : List ShapeMember, everywhereMembers (fun part => !part.isCompilerForm) ms = true →
      membersMeaning I param leaf ms = membersMeaning I param leaf' ms
  | [] => fun _ => rfl
  | ⟨some _, e⟩ :: rest => by
    intro h
    simp only [everywhereMembers, Bool.and_eq_true] at h
    simp only [membersMeaning, e.meaning_of_source leaf' h.1, membersMeaning_of_source leaf' rest h.2]
  | ⟨none, _⟩ :: rest => by
    intro h
    simp only [everywhereMembers, Bool.and_eq_true] at h
    simp only [membersMeaning, membersMeaning_of_source leaf' rest h.2]

end

/-- A member of a shape means what the first member with its name means. -/
theorem lookup_membersMeaning {members : List ShapeMember} {name : String} {m : ShapeMember}
    (h : findMember? members name = some m) :
    (membersMeaning I param leaf members).lookup name = some (m.expr.meaning I param leaf) := by
  induction members with
  | nil => cases h
  | cons first rest ih =>
    obtain ⟨firstName, e⟩ := first
    rw [findMember?, List.find?_cons] at h
    cases firstName with
    | none => exact ih h
    | some firstName =>
      rw [membersMeaning, List.lookup_cons]
      split at h
      · rename_i heq
        cases h
        obtain rfl : firstName = name := Option.some.inj (eq_of_beq heq)
        simp
      · rename_i heq
        have hne : name ≠ firstName := by
          rintro rfl
          simp at heq
        rw [beq_eq_false_iff_ne.2 hne]
        exact ih h

/-- Bodies take shapes for records. -/
def bodyMeaning (I : Interpretation V) (param : String → Datum V) (leaf : MemberPath → Datum V) :
    RecordMeaning (Datum V) where
  eval e := e.meaning I param leaf
  access_congr h name := by rw [meaning, meaning, h]
  access_shape hm := by
    rw [meaning, meaning, Datum.member, lookup_membersMeaning hm]
    rfl

/-- What is left when accesses to members of shapes are followed has the same meaning. -/
theorem meaning_reduceMembers (e : Expr) :
    e.reduceMembers.meaning I param leaf = e.meaning I param leaf :=
  (bodyMeaning I param leaf).eval_reduceMembers e

end Expr

end QueryPipeline
