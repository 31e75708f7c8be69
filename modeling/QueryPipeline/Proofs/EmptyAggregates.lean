import QueryPipeline.Proofs.Materialization
import QueryPipeline.Proofs.Terminals

/-!
# Aggregations over no rows

A sum, mean, minimum or maximum is a function of a scalar over all rows that the draft sees. A database
answers it with one row, whose only value is null when there were no rows. What becomes of the null is settled
in three places: the type of the scalar, the shaper around the value and the form that values of the type
have. Together they say that only a mean, minimum or maximum of a scalar that is never absent is an error,
and that every other answer is the value in the form of the result type.
-/

set_option autoImplicit false

namespace QueryPipeline

open Sql

namespace Operator

/-- The selector of an operator that computes a single value from a scalar of all rows. -/
def aggregated? : Operator → Option (Option Lambda)
  | sum f | average f | min f | max f => some f
  | _ => none

/-- The operator is the sum, which is the only such value that no rows have. -/
def isSum : Operator → Bool
  | sum _ => true
  | _ => false

/-- The type of what an operator computes from values of a type. The mean of whole numbers is none itself. -/
def totalType (type : DataType) : Operator → DataType
  | average _ => if type.kind.isInteger then ⟨.float64, type.nullable⟩ else type
  | _ => type

/-- A computed value may be absent just when the values may be. -/
@[simp] theorem nullable_totalType (op : Operator) (type : DataType) :
    (op.totalType type).nullable = type.nullable := by
  unfold totalType
  split
  · split <;> rfl
  · rfl

/-- A sum has the type of what is added up. -/
theorem totalType_of_isSum {op : Operator} (h : op.isSum = true) (type : DataType) :
    op.totalType type = type := by
  cases op <;> first | rfl | cases h

end Operator

namespace Sql.Catalog

variable (catalog : Catalog)

/-- A function of a scalar over all rows, of which the values are taken as doubles. -/
def IsDoubleTotal (function : String) (input total : Scalar) : Prop :=
  ∃ value, catalog.cast? input (DataType.float64.withNullable input.type.nullable) = some value ∧
    total = catalog.function function [value] (DataType.float64.withNullable input.type.nullable)

/-- A function of a scalar over all rows, where single-precision numbers are counted up in double precision
and the result is a single-precision number again. -/
def IsTotalOf (function : String) (input total : Scalar) : Prop :=
  if input.type.kind = .float32 then
    ∃ double, catalog.IsDoubleTotal function input double ∧
      catalog.cast? double input.type = some total
  else total = catalog.function function [input] input.type

end Sql.Catalog

/-- What an operator computes from a scalar of all rows. -/
def Operator.Totals (catalog : Catalog) (input total : Scalar) : Operator → Prop
  | sum _ => catalog.IsTotalOf "SUM" input total
  | average _ =>
    if input.type.kind.isInteger then catalog.IsDoubleTotal "AVG" input total
    else catalog.IsTotalOf "AVG" input total
  | min _ => total = catalog.function "MIN" [input] input.type
  | max _ => total = catalog.function "MAX" [input] input.type
  | _ => False

namespace Sql.Catalog

variable {catalog : Catalog} {input total : Scalar}

/-- A cast that succeeds has the type that is asked for. -/
theorem type_cast? {s r : Scalar} {type : DataType} (h : catalog.cast? s type = some r) :
    r.type = type := by
  obtain ⟨m, -, rfl⟩ := Option.map_eq_some_iff.1 h
  rfl

/-- A total in doubles has the type of doubles, and may be absent where its input may be. -/
theorem IsDoubleTotal.type {function : String} (h : catalog.IsDoubleTotal function input total) :
    total.type = ⟨.float64, input.type.nullable⟩ := by
  obtain ⟨value, -, rfl⟩ := h
  rfl

/-- A total of the type of its input has this type. -/
theorem IsTotalOf.type {function : String} (h : catalog.IsTotalOf function input total) :
    total.type = input.type := by
  unfold IsTotalOf at h
  split at h
  · obtain ⟨double, -, hcast⟩ := h
    exact type_cast? hcast
  · rw [h]
    rfl

end Sql.Catalog

/-- What an operator computes has the type that the operator gives it. -/
theorem Operator.Totals.type {catalog : Catalog} {input total : Scalar} {op : Operator}
    (h : op.Totals catalog input total) : total.type = op.totalType input.type := by
  cases op with
  | sum f => exact Catalog.IsTotalOf.type h
  | average f =>
    by_cases hinteger : input.type.kind.isInteger = true
    · simp only [Totals, totalType, if_pos hinteger] at h ⊢
      exact h.type
    · simp only [Totals, totalType, if_neg hinteger] at h ⊢
      exact h.type
  | min f | max f =>
    rw [show total = _ from h]
    rfl
  | _ => exact h.elim

namespace Environment

variable {env : Environment} {q q' : ShapedDraft}

/-- A cast succeeds just where the catalog has one. -/
theorem cast_eq_ok_iff {s r : Scalar} {type : DataType} :
    env.cast s type = .ok r ↔ env.catalog.cast? s type = some r := by
  unfold Environment.cast
  cases env.catalog.cast? s type <;> simp

/-- An aggregate that succeeds is a total of the type of its input. -/
theorem isTotalOf_of_ok {function : String} {input total : Scalar}
    (h : env.aggregateOf function input = .ok total) : env.catalog.IsTotalOf function input total := by
  by_cases hsingle : input.type.kind = .float32
  · simp only [aggregateOf, Catalog.IsTotalOf, if_pos hsingle] at h ⊢
    obtain ⟨value, hvalue, h⟩ := bind_eq_ok.1 h
    exact ⟨_, ⟨value, cast_eq_ok_iff.1 hvalue, rfl⟩, cast_eq_ok_iff.1 h⟩
  · simp only [aggregateOf, Catalog.IsTotalOf, if_neg hsingle] at h ⊢
    cases h
    rfl

/-- An average that succeeds is the total of an average. -/
theorem totals_of_averageOf {f : Option Lambda} {input total : Scalar}
    (h : env.averageOf input = .ok total) : (Operator.average f).Totals env.catalog input total := by
  by_cases hinteger : input.type.kind.isInteger = true
  · simp only [averageOf, Operator.Totals, if_pos hinteger] at h ⊢
    obtain ⟨value, hvalue, h⟩ := bind_eq_ok.1 h
    cases h
    exact ⟨value, cast_eq_ok_iff.1 hvalue, rfl⟩
  · simp only [averageOf, Operator.Totals, if_neg hinteger] at h ⊢
    exact isTotalOf_of_ok h

/-- The shaper of an answer: the value itself, which may have to be there. -/
def totalShaper (total : Scalar) (emptyHasValue : Bool) : Expr :=
  if emptyHasValue then .binding .root total.type else .ensureNonEmpty (.binding .root total.type)

/-- An aggregation returns a scalar over the rows that it sees, which has to have a value unless that of the
rows may be absent or no rows have one. -/
theorem aggregate_returns {op : Operator} {selector : Option Lambda}
    {compute : Scalar → Except Diagnostic Scalar} {emptyHasValue : Bool}
    (h : env.aggregate q op selector compute emptyHasValue = .ok q') :
    ∃ seen s total, env.selected q selector = .ok seen ∧ seen.draft.scalar? .root = some s ∧
      compute (env.catalog.resolve s) = .ok total ∧
      q' = { (seen.mapDraft Draft.unordered).returning total with
        shaper := totalShaper total (s.type.nullable || emptyHasValue) } := by
  rw [aggregate_eq] at h
  obtain ⟨seen, hseen, h⟩ := bind_eq_ok.1 h
  unfold computed at h
  dsimp only at h
  split at h
  · cases h
  · rename_i s hs
    obtain ⟨total, htotal, h⟩ := bind_eq_ok.1 h
    refine ⟨seen, s, total, hseen, hs, refuse_eq_ok htotal, ?_⟩
    rw [Catalog.type_resolve] at h
    by_cases hvalue : (s.type.nullable || emptyHasValue) = true
    · rw [if_pos hvalue] at h
      rw [totalShaper, if_pos hvalue]
      cases h
      rfl
    · rw [if_neg hvalue] at h
      rw [totalShaper, if_neg hvalue]
      cases h
      rfl

/-- An aggregation that succeeds replaces all rows by one total of what is selected, which must be present unless
the type admits absence or it is a sum. -/
theorem apply_aggregated {op : Operator} {selector : Option Lambda}
    (hop : op.aggregated? = some selector) (h : env.apply q op = .ok q') :
    ∃ seen s total, env.selected q selector = .ok seen ∧ seen.draft.scalar? .root = some s ∧
      op.Totals env.catalog (env.catalog.resolve s) total ∧
      q' = { (seen.mapDraft Draft.unordered).returning total with
        shaper := totalShaper total (s.type.nullable || op.isSum) } := by
  cases op with
  | sum f =>
    cases hop
    obtain ⟨seen, s, total, hseen, hs, htotal, hq'⟩ := aggregate_returns h
    exact ⟨seen, s, total, hseen, hs, isTotalOf_of_ok htotal, hq'⟩
  | average f =>
    cases hop
    obtain ⟨seen, s, total, hseen, hs, htotal, hq'⟩ := aggregate_returns h
    exact ⟨seen, s, total, hseen, hs, totals_of_averageOf htotal, hq'⟩
  | min f | max f =>
    cases hop
    obtain ⟨seen, s, total, hseen, hs, htotal, hq'⟩ := aggregate_returns h
    cases htotal
    exact ⟨seen, s, _, hseen, hs, rfl, hq'⟩
  | _ => cases hop

end Environment

namespace ShapedDraft

variable {q : ShapedDraft} {total : Scalar}

/-- A query that returns a single scalar reads it from the first value of a row. -/
theorem read_returning (v : Literal) (others : Row) :
    (q.returning total).draft.finish.read (v :: others) .root = .ok v := rfl

/-- The first row of an answer is an error if null stands for a value that has to be there, and otherwise its
first value in the form of the type. -/
theorem materialize_returning (emptyHasValue : Bool) (v : Literal) (others : Row) (rest : List Row) :
    (finish { q.returning total with
        shaper := Environment.totalShaper total emptyHasValue }).materialize ((v :: others) :: rest) =
      if v.isNull && !emptyHasValue then .error .noElements
      else .ok (.single (.scalar (coerce v total.type))) := by
  show (do return QueryResult.single (← (q.returning total).draft.finish.shape (v :: others)
    (Environment.totalShaper total emptyHasValue))) = _
  cases emptyHasValue with
  | true =>
    rw [Bool.not_true, Bool.and_false]
    rfl
  | false =>
    show (do return QueryResult.single (← Select.shape _ _ (.ensureNonEmpty (.binding .root _)))) = _
    rw [Select.shape, Select.requirePresent, Select.shape, read_returning]
    cases hnull : v.isNull <;> simp [bind, Except.bind, pure, Except.pure, hnull]

end ShapedDraft

/-- The zero among the numbers of a kind. -/
def DataKind.zero? : DataKind → Option Literal
  | .int16 | .int32 | .int64 => some (.integer 0)
  | .float32 | .float64 => some (.float .zero)
  | .decimal => some (.decimal "0")
  | _ => none

/-- The neutral value of the numbers of a kind is their zero. -/
theorem DataKind.zero?_of_isNumeric {kind : DataKind} (h : kind.isNumeric = true) :
    kind.zero? = some kind.neutral := by
  cases kind <;> first | rfl | cases h

/-- How a query answers that ends with an aggregation of values of a type. -/
structure ShapedQuery.AnswersTotal (shaped : ShapedQuery) (op : Operator) (input : DataType) : Prop where
  /-- The first row is an error when it has null for a value that has to be there. -/
  empty (others : Row) (rest : List Row) (hop : op.isSum = false) (hpresent : input.nullable = false) :
    shaped.materialize ((.null :: others) :: rest) = .error .noElements
  /-- In all other cases its value is the result, in the form of the type of the result. -/
  value (v : Literal) (others : Row) (rest : List Row)
    (h : v ≠ .null ∨ op.isSum = true ∨ input.nullable = true) :
    shaped.materialize ((v :: others) :: rest) = .ok (.single (.scalar (coerce v (op.totalType input))))
  /-- The sum of no numbers is their zero. -/
  zero (hnumeric : input.kind.isNumeric = true) (hop : op.isSum = true)
    (hpresent : input.nullable = false) :
    ∃ zero ∈ input.kind.zero?, shaped.materialize [[.null]] = .ok (.single (.scalar zero))
  /-- What may be absent is so when there is nothing. -/
  absent (h : input.nullable = true) : shaped.materialize [[.null]] = .ok (.single (.scalar .null))
  noRow : shaped.materialize [] = .error .noElements

/-- The answer of an aggregation of values of a type is read as the type says. -/
theorem ShapedDraft.answersTotal_returning {q : ShapedDraft} {total : Scalar} {op : Operator} {input : DataType}
    (htype : total.type = op.totalType input) :
    (finish { q.returning total with
      shaper := Environment.totalShaper total (input.nullable || op.isSum) }).AnswersTotal op input where
  empty others rest hop hpresent := by
    rw [materialize_returning, hop, hpresent]
    rfl
  value v others rest h := by
    rw [materialize_returning, htype, if_neg]
    rcases h with h | h | h
    · cases v <;> simp_all [Literal.isNull]
    · simp [h]
    · simp [h]
  zero hnumeric hop hpresent := by
    refine ⟨_, DataKind.zero?_of_isNumeric hnumeric, ?_⟩
    rw [materialize_returning, htype, Operator.totalType_of_isSum hop, hop, Bool.or_true, if_neg (by simp)]
    rw [coerce, DataType.neutral, if_neg (by simp [hpresent])]
  absent h := by
    rw [materialize_returning, htype, h, Bool.true_or, if_neg (by simp)]
    rw [coerce, DataType.neutral, if_pos (by simp [h])]
  noRow := rfl

/-- Every accepted pipeline that ends with a sum, mean, minimum or maximum computes a function of the scalar
`s` of the rows that the aggregation sees, and its only column has the type that the operator gives to values
of the type of `s`. A single row with null is the error with the code `E0004` just when the operator is not
the sum and `s` is never absent, and in all other cases the result is the value of the row in the form of the
result type. Without any row there is that error, too. -/
theorem aggregate_answers (c : Compiler) (chain : Query) (op : Operator) (selector : Option Lambda)
    (hop : op.aggregated? = some selector) (shaped : ShapedQuery)
    (h : c.lower (chain.andThen op) = .ok shaped) :
    ∃ q seen s total, c.environment.lowerDraft chain = .ok q ∧
      c.environment.selected q selector = .ok seen ∧ seen.draft.scalar? .root = some s ∧
      op.Totals c.environment.catalog (c.environment.catalog.resolve s) total ∧
      total.type = op.totalType s.type ∧
      shaped.select.projection = [⟨total.asValueForm, none⟩] ∧ shaped.AnswersTotal op s.type ∧
      Diagnostic.noElements.code = some "E0004" := by
  obtain ⟨q', hq', rfl⟩ := Environment.lower_eq_ok.1 (Compiler.lower_eq_ok h)
  obtain ⟨start, hstart, hq'⟩ := bind_eq_ok.1 hq'
  obtain ⟨q, hq, hlast⟩ := Environment.applyAll_append hq'
  obtain ⟨seen, s, total, hseen, hs, htotal, rfl⟩ := Environment.apply_aggregated hop hlast
  have htype : total.type = op.totalType s.type := by
    rw [htotal.type, Catalog.type_resolve]
  refine ⟨q, seen, s, total, bind_eq_ok.2 ⟨start, hstart, hq⟩, hseen, hs, htotal, htype, rfl, ?_, rfl⟩
  exact ShapedDraft.answersTotal_returning htype

/-- The number of a named person. -/
def Lambda.whoseId : Lambda := ⟨"r", .access (.access (.param "r") "who") "id"⟩

/-- The mean of the numbers of the last named persons is an error where there are none, and otherwise it is a
double. -/
theorem lastNamed_mean_answers :
    ∃ shaped, (Compiler.new .persons .standard).lower
        (Query.lastNamed.andThen (.average (some .whoseId))) = .ok shaped ∧
      shaped.materialize [[.null]] = .error .noElements ∧
      shaped.materialize [[.integer 7]] = .ok (.single (.scalar (.float (.ofInt64 7)))) := by
  obtain ⟨shaped, h, hcheck⟩ : ∃ shaped, (Compiler.new .persons .standard).lower
      (Query.lastNamed.andThen (.average (some .whoseId))) = .ok shaped ∧
        decide (shaped.select.projection.map (·.expr.type) = [.float64]) = true :=
    exists_of_any (by decide +kernel)
  obtain ⟨_, _, s, total, -, -, -, -, htype, hprojection, hanswers, -⟩ := aggregate_answers
    (Compiler.new .persons .standard) .lastNamed (.average (some .whoseId)) (some .whoseId) rfl shaped h
  have htotal : (Operator.average (some .whoseId)).totalType s.type = .float64 := by
    rw [← htype]
    rw [hprojection] at hcheck
    simpa [Scalar.asValueForm, Scalar.inContext] using hcheck
  have hpresent : s.type.nullable = false := by
    rw [← Operator.nullable_totalType, htotal]
    rfl
  have hvalue := hanswers.value (.integer 7) [] [] (.inl (by decide))
  rw [htotal] at hvalue
  exact ⟨shaped, h, hanswers.empty [] [] rfl hpresent, hvalue⟩

end QueryPipeline
