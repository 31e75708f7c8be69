import Mathlib.Tactic.Common
import QueryPipeline.Proofs.Interpretation
import QueryPipeline.Sql.Draft
import QueryPipeline.Sql.Typing

/-!
# What statements mean

The value of a scalar follows from its node alone, so types, mappings and contexts do not count. A select
filters the rows of its sources, orders them, projects them, leaves out repetitions where it asks for it,
and then leaves out the rows of its offset and keeps the rows of its limit.
-/

set_option autoImplicit false

namespace QueryPipeline

open Sql

namespace Sql

variable {V : Type} [DecidableEq V] (I : Interpretation V) (db : Database V)

/-- The names of the columns of a select. -/
def Select.columnNames (s : Select) : List (Option String) := s.projection.map (·.aliasName)

mutual

/-- The value of a scalar. -/
def Scalar.eval : Scalar → Bindings V → V
  | ⟨node, _, _, _, _⟩, ρ => node.eval ρ

/-- The value of a node. -/
def Node.eval : Node → Bindings V → V
  | .column table name, ρ => ρ table name
  | .constant value, _ => I.constant value
  | .parameter name, _ => I.parameter name
  | .binary op left right, ρ => I.binary op (left.eval ρ) (right.eval ρ)
  | .not operand, ρ => I.not (operand.eval ρ)
  | .negate operand, ρ => I.negate (operand.eval ρ)
  | .isNull operand negated, ρ => I.isNull (operand.eval ρ) negated
  | .function name schema receiver args, ρ =>
    I.function name schema (evalOption receiver ρ) (evalScalars args ρ)
  | .case branches otherwise, ρ => I.case (evalBranches branches ρ) (evalOption otherwise ρ)
  | .existsIn subquery negated, ρ => I.existsIn (!(subquery.rows ρ).isEmpty) negated
  | .like subject pattern escape, ρ =>
    I.like (subject.eval ρ) (pattern.eval ρ) (evalOption escape ρ)
  | .cast operand, ρ => I.cast (operand.eval ρ)
  | .fragment sql, _ => I.fragment sql

/-- The value of a scalar that may be missing. -/
def evalOption : Option Scalar → Bindings V → Option V
  | none, _ => none
  | some s, ρ => some (s.eval ρ)

/-- The values of some scalars. -/
def evalScalars : List Scalar → Bindings V → List V
  | [], _ => []
  | s :: rest, ρ => s.eval ρ :: evalScalars rest ρ

/-- The values of the conditions and results of a `CASE`. -/
def evalBranches : List CaseBranch → Bindings V → List (V × V)
  | [], _ => []
  | ⟨test, result⟩ :: rest, ρ => (test.eval ρ, result.eval ρ) :: evalBranches rest ρ

/-- The rows of a select, next to the columns of the selects around it. -/
def Select.rows : Select → Bindings V → List (List V)
  | ⟨tables, projection, _, predicate, orderings, limit, offset, distinct⟩, ρ =>
    let kept := (sourceRows tables ρ).filter fun ρ => (evalOption predicate ρ).all I.holds
    let ordered := I.sortOn (evalKeys orderings) kept
    let projected := ordered.map (evalColumns projection)
    let different := if distinct then projected.eraseDups else projected
    window ((evalOption offset ρ).map I.count) ((evalOption limit ρ).map I.count) different

/-- The rows of all sources, each row of one with each row of the others. -/
def sourceRows : List TableSource → Bindings V → List (Bindings V)
  | [], ρ => [ρ]
  | .table name schema aliasName :: rest, ρ =>
    (db name schema).flatMap fun row => sourceRows rest (Interpretation.bindRow aliasName row ρ)
  | .subquery select aliasName :: rest, ρ =>
    (select.rows ρ).flatMap fun row =>
      sourceRows rest (Interpretation.bindRow aliasName (I.valueAt select.columnNames row) ρ)

/-- The values of projected columns. -/
def evalColumns : List OutputColumn → Bindings V → List V
  | [], _ => []
  | ⟨s, _⟩ :: rest, ρ => s.eval ρ :: evalColumns rest ρ

/-- The values of the keys of an ordering. -/
def evalKeys : List SortKey → Bindings V → List (KeyValue V)
  | [], _ => []
  | ⟨s, ascending⟩ :: rest, ρ => ⟨s.eval ρ, ascending⟩ :: evalKeys rest ρ

end

variable {I db} {ρ : Bindings V}

/-- A scalar has the value of its node, whatever its type, its mapping and its place. -/
theorem Scalar.eval_eq (s : Scalar) : s.eval I db ρ = s.node.eval I db ρ := by
  cases s
  rfl

/-- A scalar that may be missing has a value where it is there. -/
theorem evalOption_eq (s : Option Scalar) : evalOption I db s ρ = s.map (·.eval I db ρ) := by
  cases s <;> rfl

/-- Scalars are evaluated one by one, in their order. -/
theorem evalScalars_eq (ss : List Scalar) : evalScalars I db ss ρ = ss.map (·.eval I db ρ) := by
  induction ss with
  | nil => rfl
  | cons s rest ih => rw [evalScalars, ih, List.map_cons]

/-- Columns are evaluated one by one, in their order. -/
theorem evalColumns_eq (columns : List OutputColumn) :
    evalColumns I db columns ρ = columns.map (·.expr.eval I db ρ) := by
  induction columns with
  | nil => rfl
  | cons c rest ih =>
    obtain ⟨s, _⟩ := c
    rw [evalColumns, ih, List.map_cons]

/-- Keys are evaluated one by one, each with its direction. -/
theorem evalKeys_eq (keys : List SortKey) :
    evalKeys I db keys ρ = keys.map fun k => ⟨k.expr.eval I db ρ, k.ascending⟩ := by
  induction keys with
  | nil => rfl
  | cons k rest ih =>
    obtain ⟨s, _⟩ := k
    rw [evalKeys, ih, List.map_cons]

/-- Rows that are equal in all keys have equal values under each of them. -/
theorem compare_of_compareKeys {keys : List SortKey} {ρ' : Bindings V}
    (h : I.compareKeys (evalKeys I db keys ρ) (evalKeys I db keys ρ') = .eq) :
    ∀ k ∈ keys, I.compare (k.expr.eval I db ρ) (k.expr.eval I db ρ') = .eq := by
  induction keys with
  | nil => exact nofun
  | cons k rest ih =>
    obtain ⟨s, ascending⟩ := k
    rw [evalKeys, evalKeys, Interpretation.compareKeys, List.compareLex_cons_cons,
      Ordering.then_eq_eq] at h
    exact List.forall_mem_cons.2 ⟨(I.compareKey_eq_eq ascending).1 h.1, ih h.2⟩

/-- A scalar in another context has the same value. -/
@[simp] theorem Scalar.eval_inContext (s : Scalar) (asValue : Bool) :
    (s.inContext asValue).eval I db ρ = s.eval I db ρ := by
  cases s
  rfl

/-- A scalar in the place of a value has the same value. -/
@[simp] theorem Scalar.eval_asValueForm (s : Scalar) :
    s.asValueForm.eval I db ρ = s.eval I db ρ := s.eval_inContext true

/-- A scalar in the place of a condition has the same value. -/
@[simp] theorem Scalar.eval_asConditionForm (s : Scalar) :
    s.asConditionForm.eval I db ρ = s.eval I db ρ := s.eval_inContext false

/-- A scalar where it belongs by nature has the value of its node. -/
@[simp] theorem Scalar.eval_natural (node : Node) (type : DataType) (mapping : Option TypeMapping) :
    (Scalar.natural node type mapping).eval I db ρ = node.eval I db ρ := rfl

mutual

/-- A mapping does not change the value of a scalar. -/
@[simp] theorem Scalar.eval_withMapping (m : TypeMapping) :
    ∀ s : Scalar, (s.withMapping m).eval I db ρ = s.eval I db ρ
  | ⟨_, _, some _, _, _⟩ => rfl
  | ⟨node, _, none, _, _⟩ => by
    rw [Scalar.withMapping, Scalar.eval, Scalar.eval, node.eval_withMapping m]

/-- A mapping changes no value of a node. -/
theorem Node.eval_withMapping (m : TypeMapping) :
    ∀ node : Node, (node.withMapping m).eval I db ρ = node.eval I db ρ
  | .negate operand => by
    rw [Node.withMapping, Node.eval, Node.eval, operand.eval_withMapping m]
  | .binary op left right => by
    rw [Node.withMapping]
    split
    · rfl
    · rw [Node.eval, Node.eval, left.eval_withMapping m, right.eval_withMapping m]
  | .case branches otherwise => by
    rw [Node.withMapping, Node.eval, Node.eval, evalBranches_withMapping m branches,
      evalOption_withMapping m otherwise]
  | .column .. | .constant _ | .parameter _ | .not _ | .isNull .. | .function .. | .existsIn ..
  | .like .. | .cast _ | .fragment _ => by
    rw [Node.withMapping] <;> simp

/-- A mapping changes no value of the branches of a `CASE`. -/
theorem evalBranches_withMapping (m : TypeMapping) :
    ∀ branches : List CaseBranch,
      evalBranches I db (branchesWithMapping m branches) ρ = evalBranches I db branches ρ
  | [] => rfl
  | ⟨test, result⟩ :: rest => by
    rw [branchesWithMapping, evalBranches, evalBranches, result.eval_withMapping m,
      evalBranches_withMapping m rest]

/-- A mapping changes no value of a scalar that may be missing. -/
theorem evalOption_withMapping (m : TypeMapping) :
    ∀ s : Option Scalar, evalOption I db (optionWithMapping m s) ρ = evalOption I db s ρ
  | none => rfl
  | some s => by rw [optionWithMapping, evalOption, evalOption, s.eval_withMapping m]

end

namespace Catalog

variable (catalog : Catalog)

/-- The mapping of the catalog changes no value. -/
@[simp] theorem eval_resolve (s : Scalar) : (catalog.resolve s).eval I db ρ = s.eval I db ρ := by
  unfold resolve
  split
  · exact s.eval_withMapping _
  · rfl

/-- A mapping from elsewhere or from the catalog changes no value. -/
@[simp] theorem eval_resolveFrom (known : Option TypeMapping) (s : Scalar) :
    (catalog.resolveFrom known s).eval I db ρ = s.eval I db ρ := by
  unfold resolveFrom
  split
  · exact s.eval_withMapping _
  · exact catalog.eval_resolve s

/-- An operation has the value that the operator makes of its operands. -/
@[simp] theorem eval_binary (op : ScalarOp) (left right : Scalar) :
    (catalog.binary op left right).eval I db ρ =
      I.binary op (left.eval I db ρ) (right.eval I db ρ) := by
  unfold binary Scalar.binary
  split
  · simp [Node.eval]
  · dsimp only
    split <;> simp [Node.eval]

/-- A negated condition has the opposite of its value. -/
@[simp] theorem eval_not (s : Scalar) : (catalog.not s).eval I db ρ = I.not (s.eval I db ρ) := by
  simp [not, condition, Node.eval]

/-- The test for null has the value that the interpretation gives it. -/
@[simp] theorem eval_isNull (s : Scalar) (negated : Bool) :
    (catalog.isNull s negated).eval I db ρ = I.isNull (s.eval I db ρ) negated := by
  simp [isNull, condition, Node.eval]

/-- A `CASE` of one branch has the value of the branch or the other one. -/
@[simp] theorem eval_case (test ifTrue ifFalse : Scalar) :
    (catalog.case (test, ifTrue) [] (some ifFalse)).eval I db ρ =
      I.case [(test.eval I db ρ, ifTrue.eval I db ρ)] (some (ifFalse.eval I db ρ)) := by
  simp [case, Node.eval, evalBranches, evalOption]

/-- A match with a pattern has the value that the interpretation gives it. -/
@[simp] theorem eval_like (subject pattern : Scalar) (escape : Option Scalar) :
    (catalog.like subject pattern escape).eval I db ρ =
      I.like (subject.eval I db ρ) (pattern.eval I db ρ) (escape.map (·.eval I db ρ)) := by
  simp [like, condition, Node.eval, evalOption_eq, Function.comp_def]

/-- A function has the value that the interpretation gives it for its arguments. -/
@[simp] theorem eval_functionWith (name : String) (receiver : Option Scalar) (args : List Scalar)
    (type : DataType) (mapping : Option TypeMapping) :
    (catalog.functionWith name receiver args type mapping).eval I db ρ =
      I.function name none (receiver.map (·.eval I db ρ)) (args.map (·.eval I db ρ)) := by
  simp [functionWith, Node.eval, evalOption_eq, evalScalars_eq, Function.comp_def]

end Catalog

/-- The opposite of a number has the opposite of its value. -/
@[simp] theorem Scalar.eval_negated (s : Scalar) :
    s.negated.eval I db ρ = I.negate (s.eval I db ρ) := by
  simp [Scalar.negated, Node.eval]

/-- A conjunction has the value that the interpretation gives it for its operands. -/
theorem Scalar.eval_conjunction (left right : Scalar) :
    (Scalar.conjunction left right).eval I db ρ =
      I.binary .and (left.eval I db ρ) (right.eval I db ρ) := by
  simp [Scalar.conjunction, Scalar.binary, Node.eval]

end Sql

end QueryPipeline
