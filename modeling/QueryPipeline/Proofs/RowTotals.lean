import QueryPipeline.Proofs.DraftMeaning
import QueryPipeline.Proofs.Parts

/-!
# Selects that count their rows

A statement can ask for the number of rows of a select, which then answers with this number in a single row.
Only operators at the end of a pipeline ask for it: no operator before them projects a number of rows. What
functions that do not count rows become is no number of rows, whatever they are applied to.
-/

set_option autoImplicit false

namespace QueryPipeline

open Sql

/-- An interpretation that also says which value a number of rows is. A question about rows has a definite
answer, and a literal number of rows is this number. -/
structure CountingInterpretation (V : Type) extends Interpretation V where
  total : Nat → V
  truth_existsIn (found negated : Bool) : truth (existsIn found negated) = some (found != negated)
  count_integer (n : Int64) : count (constant (.integer n)) = n.toInt.toNat

namespace Sql

/-- The functions that count rows. -/
def rowCounters : List String := ["COUNT", "COUNT_BIG"]

/-- The node is the number of all rows. -/
def Node.isRowTotal : Node → Bool
  | .function name none none [⟨.fragment sql, _, _, _, _⟩] => rowCounters.contains name && sql == "*"
  | _ => false

/-- A call for all rows is a total when its function counts rows. -/
theorem Node.isRowTotal_function {name : String} {arg : Scalar} (h : arg.node = .fragment "*") :
    (Node.function name none none [arg]).isRowTotal = rowCounters.contains name := by
  obtain ⟨node, type, mapping, isCondition, asValue⟩ := arg
  cases h
  exact Bool.and_true _

/-- A piece that is written as it is stays the same with a mapping. -/
theorem Catalog.node_resolve_fragment (catalog : Catalog) (sql : String) (type : DataType) :
    (catalog.resolve (.fragment sql type)).node = .fragment sql := by
  unfold Catalog.resolve
  split <;> rfl

/-- The rows that a select answers with. The rows of a select that projects their number become a single
row. -/
def Select.answers {V : Type} [DecidableEq V] (I : CountingInterpretation V) (db : Database V)
    (s : Select) : List (List V) :=
  if s.projection.any (·.expr.node.isRowTotal) then
    let kept := (sourceRows I.toInterpretation db s.tables I.noBindings).filter fun ρ =>
      (evalOption I.toInterpretation db s.predicate ρ).all I.holds
    let totals := s.projection.map fun c =>
      if c.expr.node.isRowTotal then I.total kept.length
      else c.expr.eval I.toInterpretation db I.noBindings
    window ((evalOption I.toInterpretation db s.offset I.noBindings).map I.count)
      ((evalOption I.toInterpretation db s.limit I.noBindings).map I.count) [totals]
  else s.rows I.toInterpretation db I.noBindings

/-- Neither a select nor any source that it reads rows from, at any depth, counts rows. -/
inductive Select.CountsNothing : Select → Prop
  | intro {s : Select} (projection : ∀ c ∈ s.projection, c.expr.node.isRowTotal = false)
      (sources : ∀ inner aliasName, TableSource.subquery inner aliasName ∈ s.tables →
        Select.CountsNothing inner) : Select.CountsNothing s

/-- A select that counts nothing answers with its rows. -/
theorem Select.answers_of_countsNothing {V : Type} [DecidableEq V] {I : CountingInterpretation V}
    {db : Database V} {s : Select} (h : s.CountsNothing) :
    s.answers I db = s.rows I.toInterpretation db I.noBindings := by
  obtain ⟨hprojection, -⟩ := h
  refine if_neg ?_
  rw [List.any_eq_true]
  rintro ⟨c, hc, htotal⟩
  rw [hprojection c hc] at htotal
  cases htotal

end Sql

/-- The data that a shaped query puts together from the rows that its select answers with. -/
def ShapedQuery.results {V : Type} [DecidableEq V] (I : CountingInterpretation V) (db : Database V)
    (q : ShapedQuery) : List (Datum V) :=
  (q.select.answers I db).map (q.datum I.toInterpretation)

section Functions

/-- A scalar is not the number of all rows. -/
def Sql.Scalar.NoTotal (s : Scalar) : Prop := s.node.isRowTotal = false

namespace Sql.Scalar

variable {catalog : Catalog} {s : Scalar}

/-- A scalar that is no total is none with a mapping. -/
theorem NoTotal.withMapping (h : s.NoTotal) (m : TypeMapping) : (s.withMapping m).NoTotal := by
  obtain ⟨node, type, mapping, isCondition, asValue⟩ := s
  cases mapping with
  | some known => exact h
  | none =>
    show (node.withMapping m).isRowTotal = false
    cases node with
    | binary op left right =>
      rw [Node.withMapping]
      split <;> rfl
    | function _ _ _ _ => exact h
    | _ => rfl

/-- A scalar that is no total is none with the mapping of the catalog. -/
theorem NoTotal.resolve (h : s.NoTotal) : (catalog.resolve s).NoTotal := by
  unfold Catalog.resolve
  split
  · exact h.withMapping _
  · exact h

/-- An operation is no total. -/
theorem noTotal_binary (op : ScalarOp) (left right : Scalar) : (catalog.binary op left right).NoTotal := by
  obtain ⟨l, r, h⟩ := catalog.binary_node op left right
  rw [NoTotal, h]
  rfl

/-- A function that does not count rows is no number of rows, whatever it is applied to. -/
theorem noTotal_functionWith {name : String} (h : rowCounters.contains name = false)
    (receiver : Option Scalar) (args : List Scalar) (type : DataType) (mapping : Option TypeMapping) :
    (catalog.functionWith name receiver args type mapping).NoTotal := by
  show Node.isRowTotal (.function name none receiver _) = false
  unfold Node.isRowTotal
  split
  · rename_i heq
    rw [← (Node.function.inj heq).1, h, Bool.false_and]
  · rfl

end Sql.Scalar

open Scalar

variable {catalog : Catalog} {s : Scalar}

/-- A cast is no total. -/
theorem noTotal_cast? {operand : Scalar} {type : DataType} (h : catalog.cast? operand type = some s) :
    s.NoTotal := by
  obtain ⟨m, -, rfl⟩ := Option.map_eq_some_iff.1 h
  rfl

end Functions

end QueryPipeline
