import QueryPipeline.Proofs.Answers
import QueryPipeline.Proofs.ResultRows

/-!
# Operators at the end of a pipeline

A pipeline of operators on lists has rows in a final order. An operator that returns a single value computes
it from these rows, or from those that its predicate is true of: whether there are any, how many there are,
the first one or the last one. The operators before it may have limited the rows, left out repetitions or
ordered them; what the draft has become by then plays no part.
-/

set_option autoImplicit false

namespace QueryPipeline

open Sql

namespace Operator

/-- The operators that make a list of a list. -/
def isOnLists : Operator → Bool
  | filter _ | select _ | orderBy .. | thenBy .. | skip _ | take _ | distinct => true
  | _ => false

/-- The operators that ask about the rows as a whole or for one of them. -/
def isTerminal : Operator → Bool
  | any _ | count _ | longCount _ | first .. | single .. | last .. => true
  | _ => false

/-- The predicate of an operator that asks about rows. -/
def predicate? : Operator → Option Lambda
  | any f | count f | longCount f | first f _ | single f _ | last f _ => f
  | _ => none

/-- What an operator returns for some rows in their final order. The last row is one that no other row comes
after, and where no two rows are equal in their keys it is the last one of the list. -/
def Yields {V : Type} (I : CountingInterpretation V) (rows : Sequence V) (results : List (Datum V)) :
    Operator → Prop
  | any _ => ∃ v, results = [.value v] ∧ I.truth v = some (!rows.isEmpty)
  | count _ | longCount _ => results = [.value (I.total rows.length)]
  | first .. | single .. => results = (rows.map (·.1)).take 1
  | last .. =>
    (rows = [] ∧ results = []) ∨ ∃ r ∈ rows, results = [r.1] ∧
      (∀ r' ∈ rows, I.compareKeys r.2 r'.2 ≠ .lt) ∧
      (rows.Pairwise (fun r r' => I.compareKeys r.2 r'.2 ≠ .eq) → rows.getLast? = some r)
  | _ => False

end Operator

section Chains

/-- What a draft projects and is ordered by, and what its sources project, are no numbers of rows. -/
structure Sql.Draft.CountsNothing (d : Draft) : Prop where
  shape : ∀ s ∈ d.shape.scalars, s.NoTotal
  keys : ∀ k ∈ d.orderings, k.expr.NoTotal
  sources : ∀ inner aliasName, TableSource.subquery inner aliasName ∈ d.tables → inner.CountsNothing

namespace Sql.Draft.CountsNothing

variable {d : Draft}

/-- The result of a draft without numbers of rows has none. -/
theorem finish (h : d.CountsNothing) : d.finish.CountsNothing := by
  refine .intro (fun c hc => ?_) h.sources
  rcases d.rowProjection_grows.origin c hc with hc | ⟨s, hs, he⟩
  · cases hc
  · rw [he]
    exact h.shape s hs

/-- The subquery that a draft without numbers of rows becomes has none. -/
theorem subquery (h : d.CountsNothing) : d.subquery.CountsNothing := by
  refine .intro (fun c hc => ?_) h.sources
  rcases d.subqueryProjection_grows.origin c hc with hc | ⟨s, hs, he⟩
  · cases hc
  · rw [he]
    rcases List.mem_append.1 hs with hs | hs
    · exact h.shape s hs
    · obtain ⟨k, hk, rfl⟩ := List.mem_map.1 hs
      exact h.keys k hk

/-- A scalar that stands for a column of a subquery is a column itself. -/
theorem noTotal_outerColumn {columns : List OutputColumn} {s s' : Scalar} (h : OuterColumn columns s s') :
    s'.NoTotal := by
  obtain ⟨_, -, _, -, -, rfl⟩ := h
  rfl

/-- To push down brings in no number of rows. -/
theorem pushDown (h : d.CountsNothing) : d.pushDown.CountsNothing := by
  rw [pushDown_eq]
  constructor
  · intro s' hs'
    obtain ⟨s, -, hs⟩ := d.outerShape_related.exists_of_mem_scalars hs'
    exact noTotal_outerColumn hs
  · intro k' hk'
    obtain ⟨k, -, hk, -⟩ := exists_of_mem_right d.outerOrderings_related hk'
    exact noTotal_outerColumn hk
  · intro inner aliasName hinner
    cases List.mem_singleton.1 hinner
    exact h.subquery

/-- A condition brings in no number of rows. -/
theorem restrict (h : d.CountsNothing) (s : Scalar) : (d.restrict s).CountsNothing := by
  unfold Draft.restrict
  split
  · exact h
  · exact ⟨h.shape, h.keys, h.sources⟩

/-- To order by a scalar that is no number of rows brings in none. -/
theorem orderBy (h : d.CountsNothing) {k : SortKey} (hk : k.expr.NoTotal) :
    (d.orderBy k).CountsNothing :=
  ⟨h.shape, List.forall_mem_singleton.2 hk, h.sources⟩

/-- To order by a further scalar that is no number of rows brings in none. -/
theorem thenBy (h : d.CountsNothing) {k : SortKey} (hk : k.expr.NoTotal) :
    (d.thenBy k).CountsNothing := by
  unfold Draft.thenBy
  split
  · exact h
  · exact ⟨h.shape, List.forall_mem_append.2 ⟨h.keys, List.forall_mem_singleton.2 hk⟩, h.sources⟩

end Sql.Draft.CountsNothing

/-- The rules make no number of rows as long as no function does and the draft has none. -/
theorem Lowered.rules_noTotal {scope : Scope} (hf : scope.functions.Keep scope.catalog Scalar.NoTotal)
    (hdraft : ∀ s ∈ scope.draft.shape.scalars, s.NoTotal) :
    Lowered.Rules scope (fun _ => true) fun _ s => s.NoTotal where
  constant _ := rfl
  null _ := rfl
  parameter _ := rfl
  draft _ := hdraft _
  shapeMember _ _ h := h
  member hp _ hr h := (hf _ hp).member (fun v hv => (hr v hv).elim fun _ h => h.2) h
  isNull _ := rfl
  binary _ _ _ _ _ := Scalar.noTotal_binary _ _ _
  not _ := rfl
  negate _ := rfl
  method hp _ hr hargs h := (hf _ hp).method (fun v hv => (hr v hv).elim fun _ h => h.2)
    (fun a ha => (hargs a ha).elim fun _ h => h.2) h
  conditional _ _ _ := rfl
  convert {operand type value s} _ ho h := by
    unfold convertScalar at h
    split at h
    · cases h
      exact ho
    · exact noTotal_cast? h

/-- A body becomes no number of rows as long as no function does and the draft has none. -/
theorem Lowered.noTotal {scope : Scope} {e : Expr} {s : Scalar} (h : Lowered scope e s)
    (hf : scope.functions.Keep scope.catalog Scalar.NoTotal)
    (hdraft : ∀ s ∈ scope.draft.shape.scalars, s.NoTotal) : s.NoTotal :=
  h.ofRules (rules_noTotal hf hdraft) (Expr.everywhere_of_forall (fun _ => rfl) e)

namespace Environment

variable {env : Environment} {q q' : ShapedDraft}

/-- A body becomes no number of rows. -/
theorem noTotal_lowerIn (hf : env.functions.Keep env.catalog Scalar.NoTotal)
    (h : q.draft.CountsNothing) {e : Expr} {asValue : Bool} {s : Scalar}
    (hs : (env.scope q).lowerIn e asValue = .ok (some s)) : s.NoTotal := by
  obtain ⟨s', hs', rfl⟩ := Scope.lowerIn_eq_some hs
  exact (hs'.noTotal hf h.shape).resolve

/-- To push down on a condition brings in no number of rows. -/
theorem countsNothing_pushDownIf (h : q.draft.CountsNothing) (condition : Bool) :
    (q.pushDownIf condition).draft.CountsNothing := by
  unfold ShapedDraft.pushDownIf
  split
  · exact h.pushDown
  · exact h

/-- No operator on lists counts rows. -/
theorem apply_countsNothing (hf : env.functions.Keep env.catalog Scalar.NoTotal) {op : Operator}
    (hop : op.isOnLists = true) (h : q.draft.CountsNothing) (happly : env.apply q op = .ok q') :
    q'.draft.CountsNothing := by
  cases op with
  | filter f =>
    obtain ⟨s, -, happly⟩ := bind_eq_ok.1 happly
    cases happly
    exact (countsNothing_pushDownIf h _).restrict s
  | select f =>
    have happly : env.select q f = .ok q' := happly
    unfold Environment.select at happly
    split at happly
    · cases happly
      exact h
    · obtain ⟨⟨shaper, shape⟩, hbound, happly⟩ := bind_eq_ok.1 happly
      cases happly
      have hpushed := countsNothing_pushDownIf h q.draft.distinct
      have hshape := (Scope.bind_bound _ _ _ _ hbound).keeps
        (fun _ => rfl) (fun _ _ _ hs => noTotal_lowerIn hf hpushed hs) hpushed.shape (Expr.callsOnly_true _)
      exact ⟨hshape, hpushed.keys, hpushed.sources⟩
  | orderBy f _ =>
    obtain ⟨s, hs, happly⟩ := bind_eq_ok.1 happly
    cases happly
    have hopened := countsNothing_pushDownIf h q.isClosed
    exact hopened.orderBy (noTotal_lowerIn hf hopened (required_eq_ok hs))
  | thenBy f _ =>
    obtain ⟨s, hs, happly⟩ := bind_eq_ok.1 happly
    cases happly
    have hopened := countsNothing_pushDownIf h q.isClosed
    exact hopened.thenBy (noTotal_lowerIn hf hopened (required_eq_ok hs))
  | skip rows | take rows =>
    obtain ⟨s, -, happly⟩ := bind_eq_ok.1 happly
    cases happly
    have hpushed := countsNothing_pushDownIf h
    exact ⟨(hpushed _).shape, (hpushed _).keys, (hpushed _).sources⟩
  | distinct =>
    cases happly
    have hpushed := countsNothing_pushDownIf h q.draft.isLimited
    exact ⟨hpushed.shape, List.forall_mem_nil _, hpushed.sources⟩
  | _ => cases hop

/-- Operators on lists bring in no number of rows. -/
theorem applyAll_countsNothing (hf : env.functions.Keep env.catalog Scalar.NoTotal)
    {ops : List Operator} (hops : ∀ op ∈ ops, op.isOnLists = true) (h : q.draft.CountsNothing)
    (happly : env.applyAll q ops = .ok q') : q'.draft.CountsNothing := by
  induction ops generalizing q with
  | nil =>
    cases happly
    exact h
  | cons op rest ih =>
    obtain ⟨hop, hrest⟩ := List.forall_mem_cons.1 hops
    unfold applyAll at happly
    split at happly
    · obtain ⟨q₁, hq₁, happly⟩ := bind_eq_ok.1 happly
      exact ih hrest (apply_countsNothing hf hop h hq₁) happly
    · cases happly

/-- The query over the table of an entity has no number of rows. -/
theorem start_countsNothing (env : Environment) (entity : EntityType) :
    (env.startQuery entity).draft.CountsNothing := by
  refine ⟨?_, List.forall_mem_nil _, fun inner aliasName hinner => ?_⟩
  · intro s hs
    simp only [startQuery, Draft.ofTable, Shape.scalars, Projected.scalars, List.flatMap_cons,
      List.flatMap_nil, List.append_nil, List.map_map, List.mem_map] at hs
    obtain ⟨property, -, rfl⟩ := hs
    rfl
  · cases List.mem_singleton.1 hinner

/-- A draft without repetitions is ordered by nothing and leaves out no rows at its front. -/
structure Tidy (q : ShapedDraft) : Prop where
  settled : q.Settled
  unshifted : q.draft.distinct = true → q.draft.offset = none

/-- A step keeps a query tidy. -/
theorem Step.tidy {A : Expr → Prop} (h : Tidy q) (hstep : env.Step A q q') : Tidy q' := by
  refine ⟨hstep.settled h.settled, ?_⟩
  have hopen : q.isClosed = false → q.draft.distinct = false := fun hopen =>
    (ShapedDraft.isClosed_eq_false.1 hopen).2.2
  cases hstep with
  | pushDown _ | existence _ =>
    intro hdistinct
    cases hdistinct
  | restrict _ _ _ | exclude _ _ _ =>
    simpa only [ShapedDraft.mapDraft, Draft.distinct_restrict, Draft.offset_restrict] using h.unshifted
  | thenBy _ _ _ _ =>
    simpa only [ShapedDraft.mapDraft, Draft.distinct_thenBy, Draft.offset_thenBy] using h.unshifted
  | skip hq _ _ =>
    intro hdistinct
    rw [show (q.mapDraft _).draft.distinct = q.draft.distinct from rfl, hopen hq] at hdistinct
    cases hdistinct
  | makeDistinct hlimited =>
    intro _
    show q.draft.offset = none
    simpa using (Bool.or_eq_false_iff.1 hlimited).2
  | _ => exact h.unshifted

end Environment

end Chains

section Results

variable {V : Type} [DecidableEq V] {I : CountingInterpretation V} {db : Database V}
  {env : Environment} {q q' : ShapedDraft}

namespace ShapedDraft

/-- A query that counts nothing has the results that its rows are read as. -/
theorem results_of_countsNothing (h : q.draft.CountsNothing) :
    q.finish.results I db = q.rowsRead I.toInterpretation db := by
  show (q.draft.finish.answers I db).map _ = _
  rw [Select.answers_of_countsNothing h.finish]
  rfl

/-- A single scalar from no table has its value as the only result. -/
theorem results_ofScalar {s : Scalar} (h : s.NoTotal) (cardinality : Cardinality) :
    (⟨.ofScalar s, .binding .root s.type, cardinality⟩ : ShapedDraft).finish.results I db =
      [.value (s.eval I.toInterpretation db I.noBindings)] := by
  have hcounts : (Draft.ofScalar s).CountsNothing := by
    refine ⟨?_, List.forall_mem_nil _, fun _ _ h => absurd h List.not_mem_nil⟩
    simpa [Draft.ofScalar, Shape.scalars, Projected.scalars] using h
  rw [results_of_countsNothing hcounts, rowsRead_of_open rfl]
  show List.map _ (I.sortOn (evalKeys I.toInterpretation db []) [I.noBindings]) = _
  rw [sortOn_evalKeys_nil]
  rfl

/-- The number of all rows of a draft is its only result. -/
theorem results_returning_total {s : Scalar} (h : s.node.isRowTotal = true)
    (hopen : q.isClosed = false) :
    (q.returning s).finish.results I db =
      [.value (I.total (q.draft.kept I.toInterpretation db).length)] := by
  obtain ⟨hlimit, hoffset, -⟩ := isClosed_eq_false.1 hopen
  have hprojection : (q.returning s).finish.select.projection = [⟨s.asValueForm, none⟩] := rfl
  have hnode : s.asValueForm.node.isRowTotal = true := h
  have hanswers : (q.returning s).finish.select.answers I db =
      [[I.total (q.draft.kept I.toInterpretation db).length]] := by
    rw [Select.answers, hprojection]
    show (if (_ : Bool) = true then _ else _) = _
    rw [if_pos (by simp [hnode])]
    show window ((evalOption _ db q.draft.offset I.noBindings).map I.count)
      ((evalOption _ db q.draft.limit I.noBindings).map I.count) _ = _
    simp [hlimit, hoffset, hnode, evalOption, window]
    rfl
  rw [ShapedQuery.results, hanswers]
  rfl

end ShapedDraft

namespace Environment

/-- The predicate of an operator is true of a row: the condition that it becomes over the draft that sees all
rows holds there. Without a predicate every row counts. -/
def selects {V : Type} [DecidableEq V] (env : Environment) (I : Interpretation V) (db : Database V)
    (q : ShapedDraft) (f : Option Lambda) (ρ : Bindings V) : Bool :=
  match f with
  | none => true
  | some f =>
    match env.predicate q.opened f with
    | .ok s => I.holds (s.eval I db ρ)
    | .error _ => false

/-- The rows that the predicate of an operator is true of, in their final order and with their keys. -/
def matching {V : Type} [DecidableEq V] (env : Environment) (I : Interpretation V) (db : Database V)
    (q : ShapedDraft) (f : Option Lambda) : Sequence V :=
  ((q.places I db).filter (env.selects I db q f)).map fun ρ =>
    (q.opened.read I db ρ, evalKeys I db q.opened.draft.orderings ρ)

/-- A draft that sees all rows still does so with a condition. -/
theorem opened_restrict (q : ShapedDraft) (s : Scalar) :
    (q.opened.mapDraft (·.restrict s)).opened = q.opened.mapDraft (·.restrict s) := by
  rw [ShapedDraft.opened, ShapedDraft.isClosed_restrict, q.opened_isClosed]
  rfl

/-- A condition keeps the rows on which it holds, in their order. -/
theorem places_restrict {I : Interpretation V} (q : ShapedDraft) (s : Scalar) :
    (q.opened.mapDraft (·.restrict s)).places I db =
      (q.places I db).filter fun ρ => I.holds (s.eval I db ρ) := by
  rw [ShapedDraft.places, opened_restrict, ShapedDraft.places, ← I.sortOn_filter, ← Draft.kept_restrict]
  simp [ShapedDraft.mapDraft]

/-- A query restricted by the predicate of an operator has just the rows that the predicate is true of. -/
theorem ranked_filterWith {I : Interpretation V} {f : Option Lambda}
    (h : env.filterWith q f = .ok q') : q'.ranked I db = env.matching I db q f := by
  cases f with
  | none =>
    cases h
    have hall : (q.places I db).filter (env.selects I db q none) = q.places I db :=
      List.filter_eq_self.2 fun _ _ => rfl
    rw [matching, hall, ShapedDraft.ranked]
  | some f =>
    obtain ⟨s, hs, h⟩ := bind_eq_ok.1 h
    cases h
    have hselects : env.selects I db q (some f) = fun ρ => I.holds (s.eval I db ρ) := by
      funext ρ
      simp only [selects, hs]
    rw [ShapedDraft.ranked, places_restrict, opened_restrict, matching, hselects]
    simp only [ShapedDraft.mapDraft, ShapedDraft.read, Draft.shape_restrict, Draft.orderings_restrict]

/-- To filter keeps a query tidy. -/
theorem filterWith_tidy {f : Option Lambda} (h : Tidy q) (hq : env.filterWith q f = .ok q') : Tidy q' :=
  (filterWith_steps (A := fun _ => True) hq fun _ _ => trivial).preserve (fun _ _ h hstep => hstep.tidy h) h

/-- To filter brings in no number of rows. -/
theorem filterWith_countsNothing {f : Option Lambda} (h : q.draft.CountsNothing)
    (hq : env.filterWith q f = .ok q') : q'.draft.CountsNothing := by
  cases f with
  | none =>
    cases hq
    exact h
  | some f =>
    obtain ⟨s, -, hq⟩ := bind_eq_ok.1 hq
    cases hq
    exact (countsNothing_pushDownIf h _).restrict s

/-- Whether a query has rows, or has none, is the answer to the question about them. -/
theorem existence_yields (h : Tidy q) (negated : Bool) :
    ∃ v, (env.existence q negated).finish.results I db = [.value v] ∧
      I.truth v = some ((!(q.ranked I.toInterpretation db).isEmpty) != negated) := by
  -- only what the subquery selects and how it is ordered depends on the state of the draft
  obtain ⟨columns, slots, orderings, hexistence⟩ : ∃ columns slots orderings,
      env.existence q negated = ⟨.ofScalar (env.catalog.existsIn
        (q.draft.toSelect columns slots orderings) negated).asValueForm, .binding .root _, .single⟩ := by
    unfold existence
    dsimp only
    split
    · exact ⟨_, _, _, rfl⟩
    · exact ⟨_, _, _, rfl⟩
  have hnone :
      (env.catalog.existsIn (q.draft.toSelect columns slots orderings) negated).asValueForm.NoTotal := rfl
  rw [hexistence]
  refine ⟨_, ShapedDraft.results_ofScalar hnone _, ?_⟩
  rw [Scalar.eval_asValueForm]
  show I.truth (I.existsIn _ negated) = _
  rw [I.truth_existsIn]
  refine congrArg (fun b => some ((!b) != negated)) ?_
  have hrows : ∀ columns slots orderings,
      (q.draft.toSelect columns slots orderings).rows I.toInterpretation db I.noBindings = [] ↔ _ :=
    q.draft.rows_toSelect_eq_nil h.unshifted
  have hranked : q.ranked I.toInterpretation db = [] ↔
      q.draft.finish.rows I.toInterpretation db I.noBindings = [] := by
    rw [← List.map_eq_nil_iff (f := (·.1)), ← ShapedDraft.rowsRead_eq_ranked h.settled,
      ShapedDraft.rowsRead, List.map_eq_nil_iff]
    rfl
  rw [Bool.eq_iff_iff, List.isEmpty_iff, List.isEmpty_iff, hranked, Draft.finish_eq, hrows, hrows]

/-- The number of rows of a query. -/
theorem rowTotal_yields {function : String} (hname : rowCounters.contains function = true)
    (type : DataType) :
    (env.rowTotal q function type).finish.results I db =
      [.value (I.total (q.ranked I.toInterpretation db).length)] := by
  have hopen : (q.opened.mapDraft Draft.unordered).isClosed = false := q.opened_isClosed
  have htotal : (env.catalog.function function [.fragment "*" type] type).node.isRowTotal = true := by
    have hnode : (env.catalog.resolve (.fragment "*" type)).asValueForm.node = .fragment "*" :=
      env.catalog.node_resolve_fragment "*" type
    exact (Node.isRowTotal_function hnode).trans hname
  show ((q.opened.mapDraft Draft.unordered).returning _).finish.results I db = _
  rw [ShapedDraft.results_returning_total htotal hopen, ShapedDraft.ranked, List.length_map,
    ShapedDraft.places, Interpretation.sortOn, List.length_mergeSort]
  rfl

/-- A query that is limited to one row has the first of the rows that it had before. -/
theorem results_takeOne (h : q.draft.CountsNothing) (hlimit : q.draft.limit = none)
    (cardinality : Cardinality) :
    (ShapedDraft.finish { q.mapDraft (·.take (env.catalog.int 1)) with cardinality }).results I db =
      (q.rowsRead I.toInterpretation db).take 1 := by
  have hcounts : (q.draft.take (env.catalog.int 1)).CountsNothing := ⟨h.shape, h.keys, h.sources⟩
  have hone : I.count ((env.catalog.int 1).eval I.toInterpretation db I.noBindings) = 1 :=
    I.count_integer 1
  have htaken : (q.mapDraft (·.take (env.catalog.int 1))).rowsRead I.toInterpretation db = _ :=
    ShapedDraft.rowsRead_take hlimit (env.catalog.int 1)
  rw [hone] at htaken
  rw [← htaken]
  exact ShapedDraft.results_of_countsNothing (q := { q.mapDraft (·.take (env.catalog.int 1)) with
    cardinality }) hcounts

/-- The first row of a query. -/
theorem first_yields {f : Option Lambda} {orDefault : Bool} (h : Tidy q) (hcounts : q.draft.CountsNothing)
    (happly : env.first q f orDefault = .ok q') :
    q'.finish.results I db = ((env.matching I.toInterpretation db q f).map (·.1)).take 1 := by
  obtain ⟨q₁, hfilter, happly⟩ := bind_eq_ok.1 happly
  cases happly
  have hpushed := countsNothing_pushDownIf (filterWith_countsNothing hcounts hfilter)
    q₁.draft.limit.isSome
  have hsettled := (filterWith_tidy h hfilter).settled
  rw [results_takeOne hpushed q₁.limit_pushDownIf, ShapedDraft.rowsRead_pushDownIf hsettled,
    ShapedDraft.rowsRead_eq_ranked hsettled, ranked_filterWith hfilter]

/-- The first row of a draft in the opposite order is the last row of the draft. -/
theorem rowsRead_reverse_yields {I : Interpretation V} (hopen : q.isClosed = false) :
    (q.ranked I db = [] ∧ ((q.mapDraft Draft.reverse).rowsRead I db).take 1 = []) ∨
      ∃ r ∈ q.ranked I db, ((q.mapDraft Draft.reverse).rowsRead I db).take 1 = [r.1] ∧
        (∀ r' ∈ q.ranked I db, I.compareKeys r.2 r'.2 ≠ .lt) ∧
        ((q.ranked I db).Pairwise (fun r r' => I.compareKeys r.2 r'.2 ≠ .eq) →
          (q.ranked I db).getLast? = some r) := by
  have hopened : q.opened = q := by rw [ShapedDraft.opened, hopen]; rfl
  have hreversed : (q.mapDraft Draft.reverse).rowsRead I db =
      (I.sortOn (evalKeys I db q.draft.reverse.orderings) (q.draft.kept I db)).map (q.read I db) :=
    ShapedDraft.rowsRead_of_open (q := q.mapDraft Draft.reverse) hopen
  rw [ShapedDraft.ranked, ShapedDraft.places, hopened, hreversed]
  cases hrows : I.sortOn (evalKeys I db q.draft.reverse.orderings) (q.draft.kept I db) with
  | nil =>
    left
    have hkept : q.draft.kept I db = [] :=
      List.eq_nil_iff_forall_not_mem.2 fun ρ hρ => by
        have hsorted : ρ ∈ I.sortOn (evalKeys I db q.draft.reverse.orderings) (q.draft.kept I db) :=
          I.mem_sortOn.2 hρ
        rw [hrows] at hsorted
        cases hsorted
    rw [hkept]
    exact ⟨by simp [Interpretation.sortOn], rfl⟩
  | cons ρ rest =>
    right
    obtain ⟨hmem, hmax, hlast⟩ := I.last_of_head_reverse (a := ρ) q.draft.compareKeys_reverse
      (by rw [hrows]; rfl)
    refine ⟨_, List.mem_map_of_mem hmem, rfl, ?_, ?_⟩
    · intro r' hr'
      obtain ⟨ρ', hρ', rfl⟩ := List.mem_map.1 hr'
      exact hmax ρ' hρ'
    · intro hdifferent
      rw [List.getLast?_map, hlast (List.pairwise_map.1 hdifferent)]
      rfl

/-- The last row of a query. -/
theorem last_yields {op : Operator} {f : Option Lambda} {orDefault : Bool} (h : Tidy q)
    (hcounts : q.draft.CountsNothing) (happly : env.last q op f orDefault = .ok q') :
    (Operator.last f orDefault).Yields I (env.matching I.toInterpretation db q f)
      (q'.finish.results I db) := by
  obtain ⟨q₁, hfilter, happly⟩ := bind_eq_ok.1 happly
  have htidy := filterWith_tidy h hfilter
  have hpushed := countsNothing_pushDownIf (filterWith_countsNothing hcounts hfilter) q₁.draft.isLimited
  dsimp only at happly
  split at happly
  · cases happly
  · rename_i horderings
    cases happly
    have hsteps : env.Steps (fun _ => True) q₁ (q₁.pushDownIf q₁.draft.isLimited) :=
      pushDownIf_steps ShapedDraft.isClosed_of_isLimited
    have hsettled : (q₁.pushDownIf q₁.draft.isLimited).Settled :=
      (hsteps.preserve (fun _ _ h hstep => hstep.tidy h) htidy).settled
    -- a draft without repetitions has no orderings, so the draft sees all its rows
    have hopen : (q₁.pushDownIf q₁.draft.isLimited).isClosed = false := by
      refine Bool.or_eq_false_iff.2 ⟨q₁.isLimited_pushDownIf, ?_⟩
      refine Bool.eq_false_iff.2 fun hdistinct => horderings ?_
      rw [hsettled hdistinct]
      rfl
    have hranked : (q₁.pushDownIf q₁.draft.isLimited).ranked I.toInterpretation db =
        env.matching I.toInterpretation db q f := by
      rw [ShapedDraft.ranked_pushDownIf ShapedDraft.isClosed_of_isLimited, ranked_filterWith hfilter]
    have hreversed : ((q₁.pushDownIf q₁.draft.isLimited).mapDraft Draft.reverse).draft.CountsNothing := by
      refine ⟨hpushed.shape, fun k hk => ?_, hpushed.sources⟩
      obtain ⟨k', hk', rfl⟩ := List.mem_map.1 hk
      exact hpushed.keys k' hk'
    have hlimit : (q₁.pushDownIf q₁.draft.isLimited).draft.limit = none :=
      (ShapedDraft.isClosed_eq_false.1 hopen).1
    have hyields : (Operator.last f orDefault).Yields I (env.matching I.toInterpretation db q f) _ :=
      hranked ▸ rowsRead_reverse_yields hopen
    have hone : (ShapedDraft.finish { ((q₁.pushDownIf q₁.draft.isLimited).mapDraft Draft.reverse).mapDraft
        (·.take (env.catalog.int 1)) with cardinality := .one orDefault }).results I db = _ :=
      results_takeOne hreversed hlimit (.one orDefault)
    rw [← hone] at hyields
    exact hyields

/-- An operator at the end of a pipeline yields what it says of the rows that its predicate is true of. -/
theorem apply_yields {op : Operator} (hop : op.isTerminal = true) (h : Tidy q)
    (hcounts : q.draft.CountsNothing) (happly : env.apply q op = .ok q') :
    op.Yields I (env.matching I.toInterpretation db q op.predicate?) (q'.finish.results I db) := by
  cases op with
  | any f =>
    obtain ⟨q₁, hfilter, happly⟩ := bind_eq_ok.1 happly
    cases happly
    obtain ⟨v, hresults, htruth⟩ : ∃ v, (env.existence q₁ false).finish.results I db = [.value v] ∧ _ :=
      existence_yields (filterWith_tidy h hfilter) false
    rw [ranked_filterWith hfilter, Bool.bne_false] at htruth
    exact ⟨v, hresults, htruth⟩
  | count f =>
    obtain ⟨q₁, hfilter, happly⟩ := bind_eq_ok.1 happly
    cases happly
    have htotal : (env.rowTotal q₁ "COUNT" .int32).finish.results I db = _ :=
      rowTotal_yields (by decide) _
    rw [ranked_filterWith hfilter] at htotal
    exact htotal
  | longCount f =>
    obtain ⟨q₁, hfilter, happly⟩ := bind_eq_ok.1 happly
    cases happly
    have hname : rowCounters.contains env.dialect.longCountFunction = true := by
      cases env.dialect <;> decide
    have htotal : (env.rowTotal q₁ env.dialect.longCountFunction .int64).finish.results I db = _ :=
      rowTotal_yields hname _
    rw [ranked_filterWith hfilter] at htotal
    exact htotal
  | first f orDefault | single f orDefault => exact first_yields h hcounts happly
  | last f orDefault => exact last_yields h hcounts happly
  | _ => cases hop

/-- The query that a pipeline becomes, before its select is complete. -/
def lowerDraft (env : Environment) (query : Query) : Except Refusal ShapedDraft := do
  env.applyAll (← env.start query.source) query.operators

/-- An accepted pipeline is one with a draft that its select is made from. -/
theorem lower_eq_ok {query : Query} {shaped : ShapedQuery} :
    env.lower query = .ok shaped ↔ ∃ q, env.lowerDraft query = .ok q ∧ shaped = q.finish := by
  unfold lower lowerDraft
  cases env.start query.source with
  | error e => exact ⟨nofun, fun ⟨_, h, _⟩ => nomatch h⟩
  | ok start =>
    show (do return (← env.applyAll start query.operators).finish) = _ ↔ _
    rw [bind_eq_ok]
    constructor
    · rintro ⟨q, hq, h⟩
      cases h
      exact ⟨q, hq, rfl⟩
    · rintro ⟨q, hq, rfl⟩
      exact ⟨q, hq, rfl⟩

/-- Some operators and one more. -/
theorem applyAll_append {ops : List Operator} {op : Operator}
    (h : env.applyAll q (ops ++ [op]) = .ok q') :
    ∃ q₁, env.applyAll q ops = .ok q₁ ∧ env.apply q₁ op = .ok q' := by
  induction ops generalizing q with
  | nil =>
    rw [List.nil_append] at h
    unfold applyAll at h
    split at h
    · obtain ⟨q₁, hq₁, h⟩ := bind_eq_ok.1 h
      cases h
      exact ⟨q, rfl, hq₁⟩
    · cases h
  | cons first rest ih =>
    rw [List.cons_append] at h
    unfold applyAll at h
    split at h
    · rename_i hsequence
      obtain ⟨q₁, hq₁, h⟩ := bind_eq_ok.1 h
      obtain ⟨q₂, hq₂, hop⟩ := ih h
      refine ⟨q₂, ?_, hop⟩
      rw [applyAll, if_pos hsequence, hq₁]
      exact hq₂
    · cases h

/-- A pipeline with plain bodies becomes a sound query. -/
theorem lowerDraft_sound {query : Query} {entity : EntityType} {form : Form}
    (hentity : env.model.findEntity? query.source = some entity)
    (hform : query.operators.foldlM (fun form op => Operator.form? form op)
      (entity.datum fun _ => ()) = some form)
    (hq : env.lowerDraft query = .ok q) : q.Sound entity form := by
  obtain ⟨start, hstart, hq⟩ := bind_eq_ok.1 hq
  obtain ⟨entity', hentity', rfl⟩ := start_eq_ok hstart
  cases hentity.symm.trans hentity'
  obtain ⟨hsound, hsequence⟩ := start_simulates env entity .trivial fun _ _ => []
  have hempty : (env.startQuery entity).sequence .trivial (fun _ _ => []) = [] := hsequence
  have halike : ((env.startQuery entity).sequence .trivial fun _ _ => []).Alike .trivial [] := by
    rw [hempty]
    exact Sequence.Alike.refl fun _ h => absurd h List.not_mem_nil
  exact (applyAll_simulates hsound hform hq halike).1

/-- On a pipeline with plain bodies, the condition that a plain predicate becomes holds of a row just when the
predicate is true of what the row is read as. -/
theorem selects_eq {I : Interpretation V} {query : Query} {f : Lambda}
    (hq : env.lowerDraft query = .ok q) {s : Scalar} (hs : env.predicate q.opened f = .ok s)
    (hplain : (query.andThen (.filter f)).isPlain env.model = true) (ρ : Bindings V) :
    env.selects I db q (some f) ρ = I.holds (Sequence.valueOf I (f.meaning I (q.opened.read I db ρ))) := by
  unfold Query.isPlain at hplain
  split at hplain
  · rename_i entity hentity
    -- the pipeline that ends with a filter by the predicate has a form, so the predicate is plain
    obtain ⟨form', hform'⟩ := Option.isSome_iff_exists.1 hplain
    rw [Query.andThen, List.foldlM_append] at hform'
    obtain ⟨form, hform, hlast⟩ := Option.bind_eq_some_iff.1 hform'
    have hf : f.isPlain form = true := by
      by_contra hf
      simp [Operator.form?, hf] at hlast
    have hentity : env.model.findEntity? query.source = some entity := hentity
    have hsound := (lowerDraft_sound hentity hform hq).pushDownIf q.isClosed
    have hmeaning : f.meaning I (q.opened.read I db ρ) = _ :=
      hsound.meaning_eq hf (required_eq_ok hs) ρ
    rw [selects, hmeaning]
    simp only [hs]
    rfl
  · cases hplain

/-- The predicate of an operator that is accepted becomes a condition. -/
theorem predicate_of_filterWith {f : Lambda} (h : env.filterWith q (some f) = .ok q') :
    ∃ s, env.predicate q.opened f = .ok s := by
  obtain ⟨s, hs, -⟩ := bind_eq_ok.1 h
  exact ⟨s, hs⟩

/-- The predicate of an operator that is accepted becomes a condition. -/
theorem predicate_of_apply {op : Operator} (hop : op.isTerminal = true) (h : env.apply q op = .ok q')
    {f : Lambda} (hf : f ∈ op.predicate?) : ∃ s, env.predicate q.opened f = .ok s := by
  have hfilter : ∀ {g : Option Lambda} {k : ShapedDraft → Except Refusal ShapedDraft}, f ∈ g →
      (env.filterWith q g >>= k) = .ok q' → ∃ s, env.predicate q.opened f = .ok s := by
    rintro _ k rfl h
    obtain ⟨q₁, hq₁, -⟩ := bind_eq_ok.1 h
    exact predicate_of_filterWith hq₁
  cases op with
  | any g | count g | longCount g | first g _ | single g _ | last g _ => exact hfilter hf h
  | _ => cases hop

/-- Every accepted pipeline becomes a tidy query. -/
theorem lowerDraft_tidy {query : Query} (hq : env.lowerDraft query = .ok q) : Tidy q := by
  obtain ⟨start, hstart, hq⟩ := bind_eq_ok.1 hq
  obtain ⟨entity, -, rfl⟩ := start_eq_ok hstart
  exact (applyAll_steps (A := fun _ => True) hq fun _ _ => trivial).preserve
    (fun _ _ h hstep => hstep.tidy h) ⟨nofun, nofun⟩

/-- An accepted pipeline of operators on lists becomes a query without numbers of rows. -/
theorem lowerDraft_countsNothing (hf : env.functions.Keep env.catalog Scalar.NoTotal) {query : Query}
    (hquery : ∀ op ∈ query.operators, op.isOnLists = true) (hq : env.lowerDraft query = .ok q) :
    q.draft.CountsNothing := by
  obtain ⟨start, hstart, hq⟩ := bind_eq_ok.1 hq
  obtain ⟨entity, -, rfl⟩ := start_eq_ok hstart
  exact applyAll_countsNothing hf hquery (start_countsNothing env entity) hq

end Environment

/-- A pipeline of operators on lists, with any bodies, becomes a query `q` with rows in a final order. An
operator at its end yields what it says of those rows that its predicate is true of, that is, over which the
condition that the predicate becomes holds; when all bodies are plain, this is what the predicate means for
what the row is read as. -/
theorem terminal_yields (env : Environment) (hf : env.functions.Keep env.catalog Scalar.NoTotal)
    (chain : Query) (hchain : ∀ op ∈ chain.operators, op.isOnLists = true) (op : Operator)
    (hop : op.isTerminal = true) (shaped : ShapedQuery)
    (h : env.lower (chain.andThen op) = .ok shaped) (I : CountingInterpretation V) (db : Database V) :
    ∃ q, env.lowerDraft chain = .ok q ∧ env.lower chain = .ok q.finish ∧
      q.finish.select.CountsNothing ∧
      q.finish.results I db =
        (q.places I.toInterpretation db).map (q.opened.read I.toInterpretation db) ∧
      op.Yields I (env.matching I.toInterpretation db q op.predicate?) (shaped.results I db) ∧
      ∀ f ∈ op.predicate?, (chain.andThen (.filter f)).isPlain env.model = true → ∀ ρ,
        env.selects I.toInterpretation db q (some f) ρ =
          I.holds (Sequence.valueOf I.toInterpretation
            (f.meaning I.toInterpretation (q.opened.read I.toInterpretation db ρ))) := by
  obtain ⟨q', hq', rfl⟩ := Environment.lower_eq_ok.1 h
  obtain ⟨start, hstart, hq'⟩ := bind_eq_ok.1 hq'
  obtain ⟨q, hq, hlast⟩ := Environment.applyAll_append hq'
  have hdraft : env.lowerDraft chain = .ok q := bind_eq_ok.2 ⟨start, hstart, hq⟩
  have htidy := Environment.lowerDraft_tidy hdraft
  have hcounts := Environment.lowerDraft_countsNothing hf hchain hdraft
  refine ⟨q, hdraft, Environment.lower_eq_ok.2 ⟨q, hdraft, rfl⟩, hcounts.finish, ?_,
    Environment.apply_yields hop htidy hcounts hlast, fun f hmem hplain ρ => ?_⟩
  · rw [ShapedDraft.results_of_countsNothing hcounts, ShapedDraft.rowsRead_eq htidy.settled]
  · obtain ⟨s, hs⟩ := Environment.predicate_of_apply hop hlast hmem
    exact Environment.selects_eq hdraft hs hplain ρ

/-- Whole numbers that may be absent, where a number of rows is itself. -/
def CountingInterpretation.numbers : CountingInterpretation (Option Int) where
  toInterpretation := .numbers
  total n := some n
  truth_existsIn found negated := by cases found <;> cases negated <;> rfl
  count_integer _ := rfl

/-- A person whose name is number 40. -/
def Lambda.isNamedForty : Lambda :=
  ⟨"r", .binary .eq (.access (.param "r") "name") (.constant (.integer 40))⟩

/-- The last of the named persons with name 40 is the last of them in the order of the pipeline. -/
theorem lastNamed_last_yields :
    ∃ shaped, (Compiler.new .persons .standard).environment.lower
        (Query.lastNamed.andThen (.last (some .isNamedForty) false)) = .ok shaped ∧
      ∃ q, (Compiler.new .persons .standard).environment.lowerDraft .lastNamed = .ok q ∧
        (Operator.last (some .isNamedForty) false).Yields .numbers
          ((Compiler.new .persons .standard).environment.matching .numbers personRows q
            (some .isNamedForty))
          (shaped.results .numbers personRows) := by
  obtain ⟨shaped, h⟩ : ∃ shaped, (Compiler.new .persons .standard).environment.lower
      (Query.lastNamed.andThen (.last (some .isNamedForty) false)) = .ok shaped :=
    exists_of_isOk (by decide +kernel)
  obtain ⟨q, hq, -, -, -, hyields, -⟩ := terminal_yields (Compiler.new .persons .standard).environment
    (FunctionRegistry.ofDialect_noTotal _) .lastNamed (by decide) (.last (some .isNamedForty) false) rfl
    shaped h .numbers personRows
  exact ⟨shaped, h, q, hq, hyields⟩

end Results

end QueryPipeline
