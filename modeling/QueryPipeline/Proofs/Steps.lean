import Mathlib.Logic.Relation
import QueryPipeline.Compiler.Basic
import QueryPipeline.Proofs.Lowered
import QueryPipeline.Proofs.Projection

/-!
# The steps of operators

Every operator changes a query in a few small steps: the draft is pushed down, or one part of it is set.
`Step` lists these steps with the conditions under which operators take them, and `apply_steps` takes an
operator apart into them. What every step preserves, a whole pipeline preserves.
-/

set_option autoImplicit false

namespace QueryPipeline

open Sql Relation

namespace Operator

/-- The body of a function that may be missing. -/
def bodyOf (f : Option Lambda) : List Expr := f.toList.map (·.body)

/-- The bodies that become parts of a statement. An operator that is always refused has none. -/
def bodies : Operator → List Expr
  | filter f | select f | orderBy f _ | thenBy f _ | all f => [f.body]
  | skip rows | take rows => [rows]
  | any f | count f | longCount f | sum f | average f | min f | max f => bodyOf f
  | first f _ | last f _ | single f _ => bodyOf f
  | _ => []

end Operator

/-- The bodies of a pipeline. -/
def Query.bodies (q : Query) : List Expr := q.operators.flatMap Operator.bodies

namespace Sql.Draft

variable (d : Draft) (s : Scalar) (k : SortKey)

/-- A condition does not change the shape. -/
@[simp] theorem shape_restrict : (d.restrict s).shape = d.shape := by
  unfold restrict
  split <;> rfl

/-- A condition does not change the orderings. -/
@[simp] theorem orderings_restrict : (d.restrict s).orderings = d.orderings := by
  unfold restrict
  split <;> rfl

/-- A condition does not change the limit. -/
@[simp] theorem limit_restrict : (d.restrict s).limit = d.limit := by
  unfold restrict
  split <;> rfl

/-- A condition does not change the offset. -/
@[simp] theorem offset_restrict : (d.restrict s).offset = d.offset := by
  unfold restrict
  split <;> rfl

/-- A condition does not change whether repetitions are left out. -/
@[simp] theorem distinct_restrict : (d.restrict s).distinct = d.distinct := by
  unfold restrict
  split <;> rfl

/-- A further key does not change the shape. -/
@[simp] theorem shape_thenBy : (d.thenBy k).shape = d.shape := by
  unfold thenBy
  split <;> rfl

/-- A further key does not change the limit. -/
@[simp] theorem limit_thenBy : (d.thenBy k).limit = d.limit := by
  unfold thenBy
  split <;> rfl

/-- A further key does not change the offset. -/
@[simp] theorem offset_thenBy : (d.thenBy k).offset = d.offset := by
  unfold thenBy
  split <;> rfl

/-- A further key does not change whether repetitions are left out. -/
@[simp] theorem distinct_thenBy : (d.thenBy k).distinct = d.distinct := by
  unfold thenBy
  split <;> rfl

end Sql.Draft

namespace ShapedDraft

/-- The query with its draft as the source of a new one. -/
def pushDown (q : ShapedDraft) : ShapedDraft := q.mapDraft Draft.pushDown

/-- A query is open when it has no limit and no offset and keeps repetitions. -/
theorem isClosed_eq_false {q : ShapedDraft} :
    q.isClosed = false ↔
      q.draft.limit = none ∧ q.draft.offset = none ∧ q.draft.distinct = false := by
  simp [isClosed, Draft.isLimited, and_assoc]

/-- A query with a limit is closed. -/
theorem isClosed_of_limit {q : ShapedDraft} (h : q.draft.limit.isSome = true) : q.isClosed = true := by
  simp [isClosed, Draft.isLimited, h]

/-- A query with a limit or an offset is closed. -/
theorem isClosed_of_isLimited {q : ShapedDraft} (h : q.draft.isLimited = true) : q.isClosed = true := by
  simp [isClosed, h]

/-- A query without repetitions is closed. -/
theorem isClosed_of_distinct {q : ShapedDraft} (h : q.draft.distinct = true) : q.isClosed = true := by
  simp [isClosed, h]

/-- A condition does not hide rows from the operators after it. -/
theorem isClosed_restrict (q : ShapedDraft) (s : Scalar) :
    (q.mapDraft (·.restrict s)).isClosed = q.isClosed := by
  simp [isClosed, mapDraft, Draft.isLimited]

/-- A further key neither opens nor closes a query. -/
theorem isClosed_thenBy (q : ShapedDraft) (k : SortKey) :
    (q.mapDraft (·.thenBy k)).isClosed = q.isClosed := by
  simp [isClosed, mapDraft, Draft.isLimited]

/-- A draft is pushed down when it passes a check that a new draft does not pass. Then it does not pass the
check afterwards. -/
theorem check_pushDownIf (q : ShapedDraft) (check : Draft → Bool)
    (hnew : ∀ d : Draft, check d.pushDown = false) :
    check (q.pushDownIf (check q.draft)).draft = false := by
  cases hcheck : check q.draft with
  | true => exact hnew q.draft
  | false => exact hcheck

/-- A query that is opened is not closed. -/
theorem opened_isClosed (q : ShapedDraft) : q.opened.isClosed = false :=
  q.check_pushDownIf (fun d => d.isLimited || d.distinct) fun _ => rfl

/-- A query that is pushed down if it is limited is not limited. -/
theorem isLimited_pushDownIf (q : ShapedDraft) :
    (q.pushDownIf q.draft.isLimited).draft.isLimited = false :=
  q.check_pushDownIf Draft.isLimited fun _ => rfl

/-- A query that is pushed down if repetitions are left out keeps all rows. -/
theorem distinct_pushDownIf (q : ShapedDraft) :
    (q.pushDownIf q.draft.distinct).draft.distinct = false :=
  q.check_pushDownIf Draft.distinct fun _ => rfl

/-- A query that is pushed down if it has a limit has none. -/
theorem limit_pushDownIf (q : ShapedDraft) :
    (q.pushDownIf q.draft.limit.isSome).draft.limit = none := by
  have hcheck : (q.pushDownIf q.draft.limit.isSome).draft.limit.isSome = false :=
    q.check_pushDownIf (·.limit.isSome) fun _ => rfl
  simpa using hcheck

end ShapedDraft

namespace Environment

/-- The functions of all rows. -/
def rowFunctions : List String := ["COUNT", "COUNT_BIG", "SUM", "AVG", "MIN", "MAX"]

/-- The ways to compute a single value from a scalar of all rows. -/
def IsAggregate (env : Environment) (compute : Scalar → Except Diagnostic Scalar) : Prop :=
  ∃ function ∈ rowFunctions, compute = env.aggregateOf function ∨ compute = env.averageOf ∨
    compute = env.extremeOf function

/-- One change that operators make to a query. The bodies that they bring in satisfy `A`. -/
inductive Step (env : Environment) (A : Expr → Prop) (q : ShapedDraft) : ShapedDraft → Prop
  | pushDown (h : q.isClosed = true) : Step env A q q.pushDown
  | restrict {f : Lambda} {s : Scalar} (hopen : q.isClosed = false) (hbody : A f.body)
      (hs : (env.scope q).condition (f.inline q.shaper) = .ok (some s)) :
      Step env A q (q.mapDraft (·.restrict s))
  | exclude {f : Lambda} {s : Scalar} (hopen : q.isClosed = false) (hbody : A f.body)
      (hs : (env.scope q).condition (f.inline q.shaper) = .ok (some s)) :
      Step env A q (q.mapDraft (·.restrict (env.catalog.not s)))
  | project {f : Lambda} {shaper : Expr} {shape : Shape} (hdistinct : q.draft.distinct = false)
      (hbody : A f.body)
      (hbound : (env.scope q).bind (f.inline q.shaper) .root = .ok (shaper, shape)) :
      Step env A q { q.mapDraft (·.project shape) with shaper }
  | orderBy {f : Lambda} {s : Scalar} (ascending : Bool) (hopen : q.isClosed = false)
      (hbody : A f.body) (hs : (env.scope q).value (f.inline q.shaper) = .ok (some s)) :
      Step env A q (q.mapDraft (·.orderBy ⟨s, ascending⟩))
  | thenBy {f : Lambda} {s : Scalar} (ascending : Bool) (hopen : q.isClosed = false)
      (hbody : A f.body) (hs : (env.scope q).value (f.inline q.shaper) = .ok (some s)) :
      Step env A q (q.mapDraft (·.thenBy ⟨s, ascending⟩))
  | skip {count : Expr} {s : Scalar} (hopen : q.isClosed = false) (hbody : A count)
      (hs : (env.scope q).value count = .ok (some s)) : Step env A q (q.mapDraft (·.skip s))
  | take {count : Expr} {s : Scalar} (hlimit : q.draft.limit = none) (hbody : A count)
      (hs : (env.scope q).value count = .ok (some s)) : Step env A q (q.mapDraft (·.take s))
  | takeOne (hlimit : q.draft.limit = none) :
      Step env A q (q.mapDraft (·.take (env.catalog.int 1)))
  | makeDistinct (hlimited : q.draft.isLimited = false) : Step env A q (q.mapDraft Draft.makeDistinct)
  | reverse (hlimited : q.draft.isLimited = false) : Step env A q (q.mapDraft Draft.reverse)
  | unordered (hopen : q.isClosed = false) : Step env A q (q.mapDraft Draft.unordered)
  | existence (negated : Bool) : Step env A q (env.existence q negated)
  | rowTotal {function : String} (hname : function ∈ rowFunctions) (type : DataType)
      (hopen : q.isClosed = false) :
      Step env A q (q.returning (env.catalog.function function [.fragment "*" type] type))
  | aggregate {compute : Scalar → Except Diagnostic Scalar} {s r : Scalar}
      (hopen : q.isClosed = false) (hcompute : env.IsAggregate compute)
      (hs : q.draft.scalar? .root = some s) (hr : compute (env.catalog.resolve s) = .ok r) :
      Step env A q (q.returning r)
  | ensureNonEmpty {path : MemberPath} {type : DataType} (h : q.shaper = .binding path type) :
      Step env A q { q with shaper := .ensureNonEmpty q.shaper }
  | expecting (cardinality : Cardinality) : Step env A q { q with cardinality }

/-- A query becomes another one in some steps. -/
abbrev Steps (env : Environment) (A : Expr → Prop) : ShapedDraft → ShapedDraft → Prop :=
  ReflTransGen (env.Step A)

variable {env : Environment} {A : Expr → Prop} {q q' : ShapedDraft}

/-- What every step preserves, some steps preserve. -/
theorem Steps.preserve {I : ShapedDraft → Prop} (hsteps : env.Steps A q q')
    (hstep : ∀ q q', I q → env.Step A q q' → I q') (h : I q) : I q' := by
  induction hsteps with
  | refl => exact h
  | tail _ hlast ih => exact hstep _ _ ih hlast

/-- To push down on a condition is at most one step, where the condition makes sure that the query is closed. -/
theorem pushDownIf_steps {condition : Bool} (h : condition = true → q.isClosed = true) :
    env.Steps A q (q.pushDownIf condition) := by
  unfold ShapedDraft.pushDownIf
  split
  · rename_i hc
    exact .single (.pushDown (h hc))
  · exact .refl

/-- To open a query is at most one step. -/
theorem opened_steps (env : Environment) (A : Expr → Prop) (q : ShapedDraft) :
    env.Steps A q q.opened := pushDownIf_steps id

/-- A body that must not be nothing has become a scalar. -/
theorem required_eq_ok {what : String} {shown e : Expr} {answer : Answer} {s : Scalar}
    (h : required what shown e answer = .ok s) : answer = .ok (some s) := by
  unfold required at h
  split at h <;> cases h
  rfl

/-- To filter is some steps to an open query. -/
theorem filter_steps {f : Lambda} (h : env.filter q f = .ok q') (hbody : A f.body) :
    env.Steps A q q' ∧ q'.isClosed = false := by
  obtain ⟨s, hs, h⟩ := bind_eq_ok.1 h
  cases h
  have hopen := q.opened_isClosed
  refine ⟨(opened_steps env A q).tail (.restrict hopen hbody (required_eq_ok hs)), ?_⟩
  rw [ShapedDraft.isClosed_restrict]
  exact hopen

/-- To filter by a predicate that may be missing is some steps. -/
theorem filterWith_steps {f : Option Lambda} (h : env.filterWith q f = .ok q')
    (hbody : ∀ e ∈ Operator.bodyOf f, A e) : env.Steps A q q' := by
  cases f with
  | none =>
    cases h
    exact .refl
  | some f => exact (filter_steps h (hbody _ (by simp [Operator.bodyOf]))).1

/-- To select is some steps. -/
theorem select_steps {f : Lambda} (h : env.select q f = .ok q') (hbody : A f.body) :
    env.Steps A q q' := by
  unfold select at h
  split at h
  · cases h
    exact .refl
  · obtain ⟨⟨shaper, shape⟩, hbound, h⟩ := bind_eq_ok.1 h
    cases h
    have hpushed : env.Steps A q (q.pushDownIf q.draft.distinct) :=
      pushDownIf_steps ShapedDraft.isClosed_of_distinct
    exact hpushed.tail (.project q.distinct_pushDownIf hbody hbound)

/-- A selector leaves a draft that sees all rows as one that does. -/
theorem select_isClosed {f : Lambda} (h : env.select q f = .ok q') (hopen : q.isClosed = false) :
    q'.isClosed = false := by
  have hdistinct := (ShapedDraft.isClosed_eq_false.1 hopen).2.2
  unfold select at h
  split at h
  · cases h
    exact hopen
  · obtain ⟨⟨shaper, shape⟩, -, h⟩ := bind_eq_ok.1 h
    cases h
    rw [show q.pushDownIf q.draft.distinct = q by simp [ShapedDraft.pushDownIf, hdistinct]]
    exact hopen

/-- An ordering by `add`, which is a single step, is at most one step after another one. -/
theorem order_steps {f : Lambda} {descending : Bool} {add : Draft → SortKey → Draft}
    (hadd : ∀ q s, q.isClosed = false → (env.scope q).value (f.inline q.shaper) = .ok (some s) →
      env.Step A q (q.mapDraft (add · ⟨s, !descending⟩)))
    (h : env.order q f descending add = .ok q') : env.Steps A q q' := by
  obtain ⟨s, hs, h⟩ := bind_eq_ok.1 h
  cases h
  exact (opened_steps env A q).tail (hadd _ _ q.opened_isClosed (required_eq_ok hs))

/-- To count all rows is some steps. -/
theorem rowTotal_steps (env : Environment) (A : Expr → Prop) (q : ShapedDraft) {function : String}
    (hname : function ∈ rowFunctions) (type : DataType) :
    env.Steps A q (env.rowTotal q function type) := by
  have hopen := q.opened_isClosed
  exact ((opened_steps env A q).tail (.unordered hopen)).tail (.rowTotal hname type hopen)

/-- The rows that an aggregation sees. -/
def selected (env : Environment) (q : ShapedDraft) : Option Lambda → Except Refusal ShapedDraft
  | some f => env.select q.opened f
  | none => .ok q.opened

/-- The single value computed from the rows that an aggregation sees. -/
def computed (env : Environment) (q : ShapedDraft) (op : Operator)
    (compute : Scalar → Except Diagnostic Scalar) (emptyHasValue : Bool) :
    Except Refusal ShapedDraft :=
  let q := q.mapDraft Draft.unordered
  match q.draft.scalar? .root with
  | none =>
    .error (.of ((Diagnostic.noEquivalent op.name q.shaper.display).withHint
      "select a single scalar value before aggregating"))
  | some s => do
    let r ← refuse (compute (env.catalog.resolve s))
    if (env.catalog.resolve s).type.nullable || emptyHasValue then return q.returning r
    else return { q.returning r with shaper := .ensureNonEmpty (q.returning r).shaper }

/-- An aggregation computes its value from the rows that it sees. -/
theorem aggregate_eq (env : Environment) (q : ShapedDraft) (op : Operator)
    (selector : Option Lambda) (compute : Scalar → Except Diagnostic Scalar) (emptyHasValue : Bool) :
    env.aggregate q op selector compute emptyHasValue =
      env.selected q selector >>= (env.computed · op compute emptyHasValue) := by
  cases selector <;> rfl

/-- To select the rows that an aggregation sees is some steps to an open query. -/
theorem selected_steps {selector : Option Lambda} (h : env.selected q selector = .ok q')
    (hbody : ∀ e ∈ Operator.bodyOf selector, A e) : env.Steps A q q' ∧ q'.isClosed = false := by
  cases selector with
  | none =>
    cases h
    exact ⟨opened_steps env A q, q.opened_isClosed⟩
  | some f =>
    have hselect := select_steps h (hbody _ (by simp [Operator.bodyOf]))
    exact ⟨(opened_steps env A q).trans hselect, select_isClosed h q.opened_isClosed⟩

/-- What a diagnostic refuses has not succeeded. -/
theorem refuse_eq_ok {α : Type} {x : Except Diagnostic α} {a : α} (h : refuse x = .ok a) :
    x = .ok a := by
  unfold refuse at h
  split at h <;> cases h
  rfl

/-- An aggregation is some steps. -/
theorem aggregate_steps {op : Operator} {selector : Option Lambda}
    {compute : Scalar → Except Diagnostic Scalar} {emptyHasValue : Bool}
    (hcompute : env.IsAggregate compute)
    (h : env.aggregate q op selector compute emptyHasValue = .ok q')
    (hbody : ∀ e ∈ Operator.bodyOf selector, A e) : env.Steps A q q' := by
  rw [aggregate_eq] at h
  obtain ⟨q₁, hselected, h⟩ := bind_eq_ok.1 h
  obtain ⟨hsteps, hopen⟩ := selected_steps hselected hbody
  unfold computed at h
  dsimp only at h
  split at h
  · cases h
  · rename_i s hs
    obtain ⟨r, hr, h⟩ := bind_eq_ok.1 h
    have hreturning := (hsteps.tail (.unordered hopen)).tail
      (.aggregate hopen hcompute hs (refuse_eq_ok hr))
    split at h
    · cases h
      exact hreturning
    · cases h
      exact hreturning.tail (.ensureNonEmpty rfl)

/-- To ask for the first row is some steps. -/
theorem first_steps {f : Option Lambda} {orDefault : Bool} (h : env.first q f orDefault = .ok q')
    (hbody : ∀ e ∈ Operator.bodyOf f, A e) : env.Steps A q q' := by
  obtain ⟨q₁, hfilter, h⟩ := bind_eq_ok.1 h
  cases h
  have hpushed : env.Steps A q₁ (q₁.pushDownIf q₁.draft.limit.isSome) :=
    pushDownIf_steps ShapedDraft.isClosed_of_limit
  exact (((filterWith_steps hfilter hbody).trans hpushed).tail (.takeOne q₁.limit_pushDownIf)).tail
    (.expecting _)

/-- To ask for the last row is some steps. -/
theorem last_steps {op : Operator} {f : Option Lambda} {orDefault : Bool}
    (h : env.last q op f orDefault = .ok q') (hbody : ∀ e ∈ Operator.bodyOf f, A e) :
    env.Steps A q q' := by
  obtain ⟨q₁, hfilter, h⟩ := bind_eq_ok.1 h
  dsimp only at h
  split at h
  · cases h
  · cases h
    have hpushed : env.Steps A q₁ (q₁.pushDownIf q₁.draft.isLimited) :=
      pushDownIf_steps ShapedDraft.isClosed_of_isLimited
    have hlimited := q₁.isLimited_pushDownIf
    have hlimit : (q₁.pushDownIf q₁.draft.isLimited).draft.limit = none := by
      simpa using (Bool.or_eq_false_iff.1 hlimited).1
    exact ((((filterWith_steps hfilter hbody).trans hpushed).tail (.reverse hlimited)).tail
      (.takeOne hlimit)).tail (.expecting _)

/-- What an operator makes of a query, it makes of it in steps. -/
theorem apply_steps {op : Operator} (h : env.apply q op = .ok q') (hbodies : ∀ e ∈ op.bodies, A e) :
    env.Steps A q q' := by
  have hbody : ∀ {f : Lambda}, op.bodies = [f.body] → A f.body := fun he =>
    hbodies _ (by simp [he])
  cases op with
  | filter f => exact (filter_steps h (hbody rfl)).1
  | select f => exact select_steps h (hbody rfl)
  | orderBy f descending => exact order_steps (fun _ _ hopen hs => .orderBy _ hopen (hbody rfl) hs) h
  | thenBy f descending => exact order_steps (fun _ _ hopen hs => .thenBy _ hopen (hbody rfl) hs) h
  | skip count =>
    obtain ⟨s, hs, h⟩ := bind_eq_ok.1 h
    cases h
    exact (opened_steps env A q).tail
      (.skip q.opened_isClosed (hbodies count List.mem_cons_self) (required_eq_ok hs))
  | take count =>
    obtain ⟨s, hs, h⟩ := bind_eq_ok.1 h
    cases h
    have hpushed : env.Steps A q (q.pushDownIf q.draft.limit.isSome) :=
      pushDownIf_steps ShapedDraft.isClosed_of_limit
    exact hpushed.tail
      (.take q.limit_pushDownIf (hbodies count List.mem_cons_self) (required_eq_ok hs))
  | distinct =>
    cases h
    have hpushed : env.Steps A q (q.pushDownIf q.draft.isLimited) :=
      pushDownIf_steps ShapedDraft.isClosed_of_isLimited
    exact hpushed.tail (.makeDistinct q.isLimited_pushDownIf)
  | any f =>
    obtain ⟨q₁, hfilter, h⟩ := bind_eq_ok.1 h
    cases h
    exact (filterWith_steps hfilter hbodies).tail (.existence false)
  | all f =>
    obtain ⟨s, hs, h⟩ := bind_eq_ok.1 h
    cases h
    exact ((opened_steps env A q).tail
      (.exclude q.opened_isClosed (hbody rfl) (required_eq_ok hs))).tail (.existence true)
  | count f =>
    obtain ⟨q₁, hfilter, h⟩ := bind_eq_ok.1 h
    cases h
    exact (filterWith_steps hfilter hbodies).trans (rowTotal_steps _ _ _ (by decide) _)
  | longCount f =>
    obtain ⟨q₁, hfilter, h⟩ := bind_eq_ok.1 h
    cases h
    have hname : env.dialect.longCountFunction ∈ rowFunctions := by cases env.dialect <;> decide
    exact (filterWith_steps hfilter hbodies).trans (rowTotal_steps _ _ _ hname _)
  | sum f => exact aggregate_steps ⟨"SUM", by decide, .inl rfl⟩ h hbodies
  | average f => exact aggregate_steps ⟨"AVG", by decide, .inr (.inl rfl)⟩ h hbodies
  | min f => exact aggregate_steps ⟨"MIN", by decide, .inr (.inr rfl)⟩ h hbodies
  | max f => exact aggregate_steps ⟨"MAX", by decide, .inr (.inr rfl)⟩ h hbodies
  | first f orDefault | single f orDefault => exact first_steps h hbodies
  | last f orDefault => exact last_steps h hbodies
  | _ => cases h

/-- What some operators make of a query, they make of it in steps. -/
theorem applyAll_steps {ops : List Operator} (h : env.applyAll q ops = .ok q')
    (hbodies : ∀ e ∈ ops.flatMap Operator.bodies, A e) : env.Steps A q q' := by
  induction ops generalizing q with
  | nil =>
    cases h
    exact .refl
  | cons op rest ih =>
    unfold applyAll at h
    split at h
    · obtain ⟨q₁, hop, h⟩ := bind_eq_ok.1 h
      rw [List.flatMap_cons] at hbodies
      exact (apply_steps hop fun e he => hbodies e (List.mem_append_left _ he)).trans
        (ih h fun e he => hbodies e (List.mem_append_right _ he))
    · cases h

/-- The query that returns the rows of an entity. -/
def startQuery (env : Environment) (entity : EntityType) : ShapedDraft :=
  ⟨.ofTable (.table entity.tableName entity.schema (tableAlias entity.tableName))
    ⟨entity.name, entity.properties.map fun p =>
      (p.name, env.propertyColumn (tableAlias entity.tableName) p)⟩,
    .entity entity.name .root, .sequence⟩

/-- A pipeline starts from the rows of an entity of the model. -/
theorem start_eq_ok {source : String} {start : ShapedDraft} (h : env.start source = .ok start) :
    ∃ entity, env.model.findEntity? source = some entity ∧ start = env.startQuery entity := by
  unfold Environment.start at h
  split at h
  · cases h
  · rename_i entity hentity
    cases h
    exact ⟨entity, hentity, rfl⟩

/-- A pipeline becomes what some steps make of the query that returns the rows of its entity. -/
theorem lower_steps {query : Query} {shaped : ShapedQuery} (h : env.lower query = .ok shaped)
    (hbodies : ∀ e ∈ query.bodies, A e) :
    ∃ entity q, env.model.findEntity? query.source = some entity ∧
      env.Steps A (env.startQuery entity) q ∧ shaped = q.finish := by
  obtain ⟨start, hstart, h⟩ := bind_eq_ok.1 h
  obtain ⟨entity, hentity, rfl⟩ := start_eq_ok hstart
  obtain ⟨q, hq, h⟩ := bind_eq_ok.1 h
  cases h
  exact ⟨entity, q, hentity, applyAll_steps hq hbodies, rfl⟩

end Environment

/-- A pipeline that a compiler accepts is one that its environment accepts. -/
theorem Compiler.lower_eq_ok {c : Compiler} {query : Query} {shaped : ShapedQuery}
    (h : c.lower query = .ok shaped) : c.environment.lower query = .ok shaped := by
  unfold Compiler.lower at h
  split at h <;> cases h
  assumption

/-- A computation that succeeds has a result. -/
theorem exists_of_isOk {ε α : Type} {x : Except ε α} (h : x.isOk = true) : ∃ a, x = .ok a := by
  cases x with
  | error _ => cases h
  | ok a => exact ⟨a, rfl⟩

/-- A computation whose result passes a check has a result that passes it. -/
theorem exists_of_any {ε α : Type} {x : Except ε α} {check : α → Bool}
    (h : x.toOption.any check = true) : ∃ a, x = .ok a ∧ check a = true := by
  cases x with
  | error _ => cases h
  | ok a => exact ⟨a, rfl, h⟩

/-- A pipeline whose predicate passes a check has a predicate that passes it. -/
theorem exists_predicate {model : Model} {options : Options} {query : Query} {check : Scalar → Bool}
    (h : ((Compiler.new model options).lower query).toOption.any
      (fun shaped => !shaped.select.tables.isEmpty && shaped.select.predicate.any check) = true) :
    ∃ shaped predicate, (Compiler.new model options).lower query = .ok shaped ∧
      shaped.select.tables ≠ [] ∧ predicate ∈ shaped.select.predicate ∧ check predicate = true := by
  obtain ⟨shaped, hlower, hcheck⟩ := exists_of_any h
  obtain ⟨htables, hpredicate⟩ := Bool.and_eq_true_iff.1 hcheck
  cases hselect : shaped.select.predicate with
  | none =>
    rw [hselect] at hpredicate
    cases hpredicate
  | some predicate =>
    rw [hselect] at hpredicate
    exact ⟨shaped, predicate, hlower, by simpa using htables, hselect, hpredicate⟩

/-- Persons with a number and perhaps a name. -/
def Model.persons : Model :=
  ⟨[(EntityType.plain "Person").withProperty (.plain "id" .int32)
    |>.withProperty (.plain "name" (.optional .text))]⟩

/-- Among the last three persons, those with a name, each once and without the first. -/
def Query.lastNamed : Query :=
  ⟨"Person",
    [.orderBy ⟨"p", .access (.param "p") "id"⟩ true,
      .take (.constant (.integer 3)),
      .filter ⟨"p", .binary .ne (.access (.param "p") "name") (.constant .null)⟩,
      .select ⟨"p", .shapeOf [("who", .param "p"), ("name", .access (.param "p") "name")]⟩,
      .distinct,
      .orderBy ⟨"r", .access (.access (.param "r") "who") "id"⟩ false,
      .skip (.constant (.integer 1))]⟩

end QueryPipeline
