import QueryPipeline.Sql.Typing

/-!
# Functions of the pipeline language

Methods and members that are not operators become scalars through providers. A provider answers with a
scalar, with nothing when the function is not one of its own, or with a diagnostic when the function is
its own but cannot be called like this. A registry asks its providers one after the other: those that
were registered, in the order of their registration, and then the ones built in.
-/

set_option autoImplicit false

namespace QueryPipeline

open Sql

/-- What a function becomes: a scalar, nothing when no one knows the function, or a diagnostic. -/
abbrev Answer := Except Diagnostic (Option Scalar)

/-- The function is not known. -/
def Answer.unknown : Answer := .ok none

/-- The function becomes this scalar. -/
def Answer.given (s : Scalar) : Answer := .ok (some s)

/-- Someone who knows some methods and members. Both are called with the value they belong to, if they
belong to one. -/
structure FunctionProvider where
  method : Catalog → Option Scalar → QualifiedName → List Scalar → Answer
  member : Catalog → Option Scalar → QualifiedName → Answer

/-- A provider of methods only. -/
def FunctionProvider.ofMethod
    (method : Catalog → Option Scalar → QualifiedName → List Scalar → Answer) : FunctionProvider :=
  ⟨method, fun _ _ _ => .unknown⟩

/-- A provider of members only. -/
def FunctionProvider.ofMember (member : Catalog → Option Scalar → QualifiedName → Answer) :
    FunctionProvider :=
  ⟨fun _ _ _ _ => .unknown, member⟩

/-- The first answer that is not "unknown". A question may do something besides, and no one is asked after the
first answer or diagnostic. -/
def firstAnswer {m : Type → Type} [Monad m] (ask : FunctionProvider → m (Option Scalar))
    (providers : List FunctionProvider) : m (Option Scalar) :=
  providers.findSomeM? ask

/-- Where no one is asked, no one knows. -/
@[simp] theorem firstAnswer_nil (ask : FunctionProvider → Answer) : firstAnswer ask [] = Answer.unknown :=
  rfl

/-- The first provider who does not answer "unknown" settles the answer. -/
theorem firstAnswer_cons (ask : FunctionProvider → Answer) (provider : FunctionProvider)
    (rest : List FunctionProvider) : firstAnswer ask (provider :: rest) =
      match ask provider with
      | .ok none => firstAnswer ask rest
      | answer => answer := by
  show (ask provider >>= _) = _
  cases ask provider with
  | error _ => rfl
  | ok s => cases s <;> rfl

/-- The providers that are asked, in their order. Those that were registered stand in front of the ones built
in. -/
structure FunctionRegistry where
  providers : List FunctionProvider
  /-- The number of providers in front that were registered. -/
  registered : Nat
  registered_le : registered ≤ providers.length

namespace FunctionRegistry

/-- The registry with one more provider, which is asked after the ones registered earlier and before the ones
built in. -/
def register (r : FunctionRegistry) (provider : FunctionProvider) : FunctionRegistry where
  providers := r.providers.insertIdx r.registered provider
  registered := r.registered + 1
  registered_le := by
    rw [List.length_insertIdx_of_le_length r.registered_le]
    exact Nat.succ_le_succ r.registered_le

/-- What a method becomes. -/
def method (r : FunctionRegistry) (catalog : Catalog) (receiver : Option Scalar)
    (name : QualifiedName) (args : List Scalar) : Answer :=
  firstAnswer (fun p => p.method catalog receiver name args) r.providers

/-- What a member becomes. -/
def member (r : FunctionRegistry) (catalog : Catalog) (receiver : Option Scalar)
    (name : QualifiedName) : Answer :=
  firstAnswer (fun p => p.member catalog receiver name) r.providers

end FunctionRegistry

/-- A 32-bit integer that is absent when a value is. -/
def integerLike (s : Scalar) : DataType := DataType.int32.withNullable s.type.nullable

end QueryPipeline
