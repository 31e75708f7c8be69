import QueryPipeline.Proofs.FunctionErrors
import QueryPipeline.Proofs.Shaper

/-!
# Internal errors do not happen

The compiler makes three promises to itself: a constant or cast that is written has a mapping, a value that
has to be cast has a store type to be cast to, and an entity that a selector keeps is projected. All three are
kept for every pipeline, so there are no internal errors, neither when a pipeline is lowered nor when its
statement is written.
-/

set_option autoImplicit false

namespace QueryPipeline

open Sql

namespace Scope

variable {scope : Scope}

/-- Two operands fail with no internal error when neither of them does. -/
theorem pair_noBug {left right : Expr} {lowerLeft lowerRight : Answer} (hl : NoBug lowerLeft)
    (hr : NoBug lowerRight) : NoBug (pair left right lowerLeft lowerRight) := by
  unfold pair
  split
  · exact hl.bind fun _ _ => .ok _
  · exact hr.bind fun _ _ => .ok _
  · exact hl.bind fun _ _ => hr.bind fun _ _ => .ok _

/-- A body becomes a scalar or nothing, or a function refuses it, but never with an internal error. -/
theorem lower_noBug (hf : scope.functions.NeverBug scope.catalog) (e : Expr) :
    NoBug (scope.lower e) := by
  have hmethod : ∀ receiver name args,
      NoBug (scope.functions.method scope.catalog receiver name args) := fun receiver name args =>
    firstAnswer_noBug fun p hp => (hf p hp).method receiver name args
  have hmember : ∀ receiver name, NoBug (scope.functions.member scope.catalog receiver name) :=
    fun receiver name => firstAnswer_noBug fun p hp => (hf p hp).member receiver name
  refine Scope.lower.induct scope (fun e => NoBug (scope.lower e))
    (fun es => NoBug (scope.lowerArgs es))
    ?constant ?parameter ?staticMember ?property ?shapeMember ?noMember ?member ?isNullLeft
    ?isNullRight ?binary ?noOp ?not ?negate ?staticCall ?call ?conditional ?convert ?binding
    ?param ?shape ?entity ?ensureNonEmpty ?nil ?cons e
  case staticMember =>
    intro name
    rw [lower]
    exact hmember _ _
  case property =>
    intro receiver name entity path hr
    rw [lower_property hr]
    exact .ok _
  case shapeMember =>
    intro receiver name members hr m hm _ ih
    rw [lower_shapeMember hr, hm]
    exact ih
  case noMember =>
    intro receiver name members hr hm
    rw [lower_shapeMember hr, hm]
    exact .ok _
  case member =>
    intro receiver name hentity hshape ih
    rw [lower_member hentity hshape]
    refine ih.bind fun value _ => ?_
    split
    · exact hmember _ _
    · exact .ok _
  case isNullLeft =>
    intro op left right hop hright ih
    rw [lower, if_pos hop, if_pos hright]
    exact ih.bind fun _ _ => .ok _
  case isNullRight =>
    intro op left right hop hright ih
    rw [lower, if_pos hop, if_neg hright]
    exact ih.bind fun _ _ => .ok _
  case binary =>
    intro op left right hnull scalarOp hop ihl ihr
    rw [lower, if_neg hnull]
    simp only [hop]
    exact (pair_noBug ihl ihr).bind fun _ _ => .ok _
  case noOp =>
    intro op left right hnull hop
    rw [lower, if_neg hnull]
    simp only [hop]
    exact .ok _
  case not | negate =>
    intro operand ih
    rw [lower]
    exact ih.bind fun _ _ => .ok _
  case convert =>
    intro operand type ih
    rw [lower]
    exact ih.bind fun _ _ => .ok _
  case staticCall =>
    intro function args ih
    rw [lower]
    refine ih.bind fun ss _ => ?_
    split
    · exact hmethod _ _ _
    · exact .ok _
  case call =>
    intro receiver function args ihr iha
    rw [lower]
    refine ihr.bind fun value _ => ?_
    split
    · refine iha.bind fun ss _ => ?_
      split
      · exact hmethod _ _ _
      · exact .ok _
    · exact .ok _
  case conditional =>
    intro test ifTrue ifFalse iht ihl ihr
    rw [lower]
    refine iht.bind fun t _ => ?_
    split
    · exact (pair_noBug ihl ihr).bind fun _ _ => .ok _
    · exact .ok _
  case cons =>
    intro e rest ihe ihrest
    rw [lowerArgs]
    refine ihe.bind fun s _ => ?_
    split
    · exact ihrest.bind fun _ _ => .ok _
    · exact .ok _
  case nil =>
    rw [lowerArgs]
    exact .ok _
  all_goals
    intros
    rw [lower]
    exact .ok _

/-- A body in a context never fails with an internal error. -/
theorem lowerIn_noBug (hf : scope.functions.NeverBug scope.catalog) (e : Expr) (asValue : Bool) :
    NoBug (scope.lowerIn e asValue) :=
  (lower_noBug hf e).bind fun _ _ => .ok _

end Scope

/-- A refusal is never an internal error. -/
abbrev NoBugRefusal {α : Type} (x : Except Refusal α) : Prop :=
  FailsOnly (fun r => ¬ r.diagnostic.IsBug) x

/-- An entity in an expression is projected by a draft under its path. -/
def Expr.entityFound (d : Draft) : Expr → Bool
  | .entity _ path =>
    match d.projected? path with
    | some (.entity _) => true
    | _ => false
  | _ => true

/-- The entities of a shaper are found in a draft where the entries of a fitting shape are. -/
theorem Fits.entityFound {entity : EntityType} {e : Expr} {path : MemberPath} {shape : Shape}
    {d : Draft} (h : Fits entity e path shape) (hfound : ∀ p ∈ shape, d.projected? p.1 = some p.2) :
    e.everywhere (Expr.entityFound d) = true := by
  induction h with
  | scalar _ _ => rfl
  | nonEmpty _ _ => rfl
  | entity path _ =>
    have := hfound _ List.mem_cons_self
    simp [Expr.everywhere, Expr.entityFound, this]
  | shapeNil _ => rfl
  | shapeCons _ _ ihe ihrest =>
    obtain ⟨hfirst, hothers⟩ := List.forall_mem_append.1 hfound
    have hrest := ihrest hothers
    simp only [Expr.everywhere, everywhereMembers, Expr.entityFound, Bool.true_and] at hrest ⊢
    simp [ihe hfirst, hrest]

/-- The entities that a selector keeps are projected. -/
theorem ShapedDraft.Agrees.inline_entityFound {entity : EntityType} {q : ShapedDraft}
    (h : q.Agrees entity) {f : Lambda} (hbody : f.body.isSource = true) :
    (f.inline q.shaper).everywhere (Expr.entityFound q.draft) = true := by
  refine Expr.everywhere_inline (fun g e he hne => ?_) (fun _ => rfl)
    (Expr.everywhere_imp (fun e he => ?_) hbody) (h.fits.entityFound fun _ => h.found)
  · cases e with
    | param name => exact absurd rfl (hne name)
    | entity _ _ => exact he
    | _ => rfl
  · cases e with
    | entity _ _ => cases he
    | _ => rfl

/-- A selector whose entities are projected never fails with an internal error. -/
theorem Scope.bind_noBug {scope : Scope} (hf : scope.functions.NeverBug scope.catalog) (e : Expr)
    (path : MemberPath) : e.everywhere (Expr.entityFound scope.draft) = true →
      NoBugRefusal (scope.bind e path) := by
  refine Scope.bind.induct
    (fun e path => e.everywhere (Expr.entityFound scope.draft) = true →
      NoBugRefusal (scope.bind e path))
    (fun whole members path => everywhereMembers (Expr.entityFound scope.draft) members = true →
      NoBugRefusal (scope.bindMembers whole members path))
    ?shape ?entity ?leaf ?nil ?unnamed ?cons e path
  case shape =>
    intro e path members he _ ih hfound
    have hmembers := Expr.everywhere_reduceMembers hfound
    rw [he, Expr.everywhere, Bool.and_eq_true] at hmembers
    rw [bind_shape he]
    exact (ih hmembers.2).bind fun _ _ => .ok _
  case entity =>
    intro e path entity source he hfound
    have hself := Expr.everywhere_self (Expr.everywhere_reduceMembers hfound)
    rw [he] at hself
    rw [bind_entity he]
    unfold bindEntity
    split
    · exact .ok _
    · simp only [Expr.entityFound] at hself
      cases hself
  case leaf =>
    intro e path hshape hentity _
    rw [bind_leaf hshape hentity]
    unfold bindLeaf
    split
    · exact .ok _
    · exact .error (by rintro ⟨_, ⟨⟩⟩)
    · rename_i d hd
      exact .error (lowerIn_noBug hf _ true d hd)
  case nil =>
    intro whole path _
    rw [bindMembers]
    exact .ok _
  case unnamed =>
    intro whole path e rest _
    rw [bindMembers]
    exact .error (by rintro ⟨_, ⟨⟩⟩)
  case cons =>
    intro whole path name e rest ihe ihrest hfound
    rw [everywhereMembers, Bool.and_eq_true] at hfound
    rw [bindMembers]
    exact (ihe hfound.1).bind fun _ _ => (ihrest hfound.2).bind fun _ _ => .ok _

namespace Environment

variable {env : Environment} {entity : EntityType} {q : ShapedDraft}

/-- A scalar that is required fails with no internal error when its lowering does not. -/
theorem required_noBug {answer : Answer} (h : NoBug answer) (what : String) (shown e : Expr) :
    NoBugRefusal (required what shown e answer) := by
  unfold required
  split
  · exact .ok _
  · exact .error (by rintro ⟨_, ⟨⟩⟩)
  · rename_i d
    exact .error (h d rfl)

/-- A refusal reports no internal error when the diagnostic behind it is none. -/
theorem refuse_noBug {α : Type} {x : Except Diagnostic α} (h : NoBug x) : NoBugRefusal (refuse x) := by
  unfold refuse
  split
  · exact .ok _
  · rename_i d
    exact .error (h d rfl)

/-- In a catalog that has all mappings, a cast to a type of scalars fails with no internal error. -/
theorem cast_noBug (hc : env.catalog.IsTotal) (s : Scalar) {type : DataType}
    (htype : type.kind.isStructural = false) : NoBug (env.cast s type) := by
  obtain ⟨m, hm⟩ := Option.isSome_iff_exists.1 (hc _ htype)
  simp only [cast, Catalog.cast?, hm, Option.map_some]
  exact .ok _

/-- Values that are computed from all rows are only cast to numbers, which have a store type. -/
theorem IsAggregate.noBug (hc : env.catalog.IsTotal) {compute : Scalar → Except Diagnostic Scalar}
    (hcompute : env.IsAggregate compute) (input : Scalar) : NoBug (compute input) := by
  have haggregate : ∀ function, NoBug (env.aggregateOf function input) := by
    intro function
    unfold aggregateOf
    split
    · rename_i hkind
      refine (cast_noBug hc _ rfl).bind fun _ _ => cast_noBug hc _ ?_
      rw [hkind]
      rfl
    · exact .ok _
  obtain ⟨function, -, rfl | rfl | rfl⟩ := hcompute
  · exact haggregate function
  · unfold averageOf
    split
    · exact (cast_noBug hc _ rfl).bind fun _ _ => .ok _
    · exact haggregate "AVG"
  · exact .ok _

/-- What is needed of an environment for its operators never to fail with an internal error. -/
structure IsSafe (env : Environment) : Prop where
  total : env.catalog.IsTotal
  functions : env.functions.NeverBug env.catalog

/-- A filter reports no internal error. -/
theorem filter_noBug (he : env.IsSafe) (q : ShapedDraft) (f : Lambda) :
    NoBugRefusal (env.filter q f) :=
  (required_noBug (Scope.lowerIn_noBug he.functions _ _) _ _ _).bind fun _ _ => .ok _

/-- A filter that may be missing reports no internal error. -/
theorem filterWith_noBug (he : env.IsSafe) (q : ShapedDraft) (f : Option Lambda) :
    NoBugRefusal (env.filterWith q f) := by
  cases f with
  | none => exact .ok _
  | some f => exact filter_noBug he q f

/-- A selector reports no internal error. -/
theorem select_noBug (he : env.IsSafe) (h : q.Agrees entity) {f : Lambda}
    (hbody : f.body.IsPlainSource) : NoBugRefusal (env.select q f) := by
  unfold select
  split
  · exact .ok _
  · refine FailsOnly.bind (Scope.bind_noBug he.functions _ _ ?_) fun _ _ => .ok _
    have hsteps : env.Steps Expr.IsPlainSource q (q.pushDownIf q.draft.distinct) :=
      pushDownIf_steps ShapedDraft.isClosed_of_distinct
    have hagrees : (q.pushDownIf q.draft.distinct).Agrees entity :=
      hsteps.preserve (fun _ _ hq hstep => hstep.agrees hq) h
    exact hagrees.inline_entityFound hbody.1

/-- An aggregation reports no internal error. -/
theorem aggregate_noBug (he : env.IsSafe) (h : q.Agrees entity) {op : Operator}
    {selector : Option Lambda} {compute : Scalar → Except Diagnostic Scalar} {emptyHasValue : Bool}
    (hcompute : env.IsAggregate compute)
    (hbody : ∀ e ∈ Operator.bodyOf selector, e.IsPlainSource) :
    NoBugRefusal (env.aggregate q op selector compute emptyHasValue) := by
  rw [aggregate_eq]
  refine FailsOnly.bind ?_ fun q' _ => ?_
  · cases selector with
    | none => exact .ok _
    | some f =>
      have hopened : q.opened.Agrees entity :=
        (opened_steps env _ q).preserve (fun _ _ hq hstep => hstep.agrees hq) h
      exact select_noBug he hopened (hbody _ (by simp [Operator.bodyOf]))
  · unfold computed
    dsimp only
    split
    · exact .error (by rintro ⟨_, ⟨⟩⟩)
    · refine (refuse_noBug (hcompute.noBug he.total _)).bind fun _ _ => ?_
      split <;> exact .ok _

/-- An ordering reports no internal error. -/
theorem order_noBug (he : env.IsSafe) (q : ShapedDraft) (f : Lambda) (descending : Bool)
    (add : Draft → SortKey → Draft) : NoBugRefusal (env.order q f descending add) :=
  (required_noBug (Scope.lowerIn_noBug he.functions _ _) _ _ _).bind fun _ _ => .ok _

/-- To ask for the first result reports no internal error. -/
theorem first_noBug (he : env.IsSafe) (q : ShapedDraft) (f : Option Lambda) (orDefault : Bool) :
    NoBugRefusal (env.first q f orDefault) :=
  (filterWith_noBug he q f).bind fun _ _ => .ok _

/-- To ask for the last result reports no internal error. -/
theorem last_noBug (he : env.IsSafe) (q : ShapedDraft) (op : Operator) (f : Option Lambda)
    (orDefault : Bool) : NoBugRefusal (env.last q op f orDefault) := by
  refine (filterWith_noBug he q f).bind fun _ _ => ?_
  dsimp only
  split
  · exact .error (by rintro ⟨_, ⟨⟩⟩)
  · exact .ok _

/-- An operator on a query whose shaper and shape agree never fails with an internal error. -/
theorem apply_noBug (he : env.IsSafe) (h : q.Agrees entity) {op : Operator}
    (hbodies : ∀ e ∈ op.bodies, e.IsPlainSource) : NoBugRefusal (env.apply q op) := by
  have hvalue : ∀ (q : ShapedDraft) (e : Expr), NoBugRefusal (env.rowCount q e) := fun q e =>
    required_noBug (Scope.lowerIn_noBug he.functions _ _) _ _ _
  cases op with
  | filter f => exact filter_noBug he q f
  | select f => exact select_noBug he h (hbodies f.body List.mem_cons_self)
  | orderBy f descending => exact order_noBug he q f descending _
  | thenBy f descending => exact order_noBug he q f descending _
  | skip count => exact (hvalue _ count).bind fun _ _ => .ok _
  | take count => exact (hvalue _ count).bind fun _ _ => .ok _
  | distinct => exact .ok _
  | any f => exact (filterWith_noBug he q f).bind fun _ _ => .ok _
  | all f =>
    exact (required_noBug (Scope.lowerIn_noBug he.functions _ _) _ _ _).bind fun _ _ => .ok _
  | count f | longCount f => exact (filterWith_noBug he q f).bind fun _ _ => .ok _
  | sum f => exact aggregate_noBug he h ⟨"SUM", by decide, .inl rfl⟩ hbodies
  | average f => exact aggregate_noBug he h ⟨"AVG", by decide, .inr (.inl rfl)⟩ hbodies
  | min f => exact aggregate_noBug he h ⟨"MIN", by decide, .inr (.inr rfl)⟩ hbodies
  | max f => exact aggregate_noBug he h ⟨"MAX", by decide, .inr (.inr rfl)⟩ hbodies
  | first f orDefault | single f orDefault => exact first_noBug he q f orDefault
  | last f orDefault => exact last_noBug he q _ f orDefault
  | _ => exact .error (by rintro ⟨_, ⟨⟩⟩)

/-- Operators on a query whose shaper and shape agree never fail with an internal error. -/
theorem applyAll_noBug (he : env.IsSafe) (h : q.Agrees entity) {ops : List Operator}
    (hbodies : ∀ e ∈ ops.flatMap Operator.bodies, e.IsPlainSource) :
    NoBugRefusal (env.applyAll q ops) := by
  induction ops generalizing q with
  | nil => exact .ok _
  | cons op rest ih =>
    rw [List.flatMap_cons, List.forall_mem_append] at hbodies
    unfold applyAll
    split
    · refine (apply_noBug he h hbodies.1).bind fun q' hq' => ih ?_ hbodies.2
      exact (apply_steps hq' hbodies.1).preserve (fun _ _ hq hstep => hstep.agrees hq) h
    · exact .error (by rintro ⟨_, ⟨⟩⟩)

/-- A pipeline is never refused with an internal error. -/
theorem lower_noBug (he : env.IsSafe) {query : Query}
    (hbodies : ∀ e ∈ query.bodies, e.IsPlainSource) : NoBugRefusal (env.lower query) := by
  refine FailsOnly.bind ?_ fun start hstart => ?_
  · unfold start
    split
    · exact .error (by rintro ⟨_, ⟨⟩⟩)
    · exact .ok _
  · obtain ⟨entity, -, rfl⟩ := start_eq_ok hstart
    exact (applyAll_noBug he (start_agrees env entity) hbodies).bind fun _ _ => .ok _

end Environment

/-- A compiler without functions of the author's own is safe. -/
theorem Compiler.new_isSafe (model : Model) (options : Options) :
    (Compiler.new model options).environment.IsSafe :=
  ⟨options.dialect.catalog_isTotal, ofDialect_neverBug _ options.dialect⟩

/-- A compiler never reports an internal error: not when it lowers a pipeline, nor when it writes the
statement of one that it has accepted. All constants with a value and all casts of the statement, at any
depth, have a mapping, and whenever operators reach a selector, be it of their own or of an aggregation, the
entities that it keeps are projected under the paths where they are looked for. -/
theorem compiler_never_bug (model : Model) (options : Options) (formatter : Formatter) (query : Query)
    (hbodies : ∀ e ∈ query.bodies, e.isSource = true ∧ e.hasDistinctMembers = true) :
    (∀ d, (Compiler.new model options).lower query = .error d → ¬ d.IsBug) ∧
    (∀ shaped, (Compiler.new model options).lower query = .ok shaped →
      (∀ d, (Compiler.new model options).generate formatter shaped = .error d → ¬ d.IsBug) ∧
      ∀ s : Select, s.Within shaped.select → ∀ whole ∈ s.scalars, ∀ part ∈ whole.parts, part.Mapped) ∧
    ∀ before op after start q (f : Lambda), query.operators = before ++ op :: after →
      f.body ∈ op.bodies →
      (Compiler.new model options).environment.start query.source = .ok start →
      (Compiler.new model options).environment.applyAll start before = .ok q →
      ∀ bound ∈ [q.pushDownIf q.draft.distinct, q.opened],
        (f.inline bound.shaper).everywhere (Expr.entityFound bound.draft) = true := by
  have hsafe := Compiler.new_isSafe model options
  have hkept : Kept (Compiler.new model options).environment _ _ _ := settled_kept hsafe.total
  refine ⟨?_, ?_, ?_⟩
  · intro d h
    unfold Compiler.lower at h
    split at h
    · cases h
    · rename_i refusal hrefusal
      cases h
      exact Environment.lower_noBug hsafe hbodies refusal hrefusal
  · intro shaped h
    obtain ⟨entity, q, -, hsteps, rfl⟩ :=
      Environment.lower_steps (Compiler.lower_eq_ok h) hbodies
    have hkeptBodies : BodiesKept (Compiler.new model options).environment
        (fun e => e.isSource = true ∧ e.hasDistinctMembers = true) _ _ :=
      .ofClosed (fun _ => pending_closed hsafe.total)
        (fun P hP => hP.ofDialect_keep options.dialect) fun _ h => h.1
    have hholds := hkept.steps hkeptBodies (Environment.start_settled _ entity) rfl hsteps
    have hall := hholds.finish hkept
    refine ⟨?_, fun s hs whole hwhole part hpart => ?_⟩
    · refine FailsOnly.bind ?_ fun _ _ => .ok _
      exact (Select.render_noBug _ hall).bind fun _ _ => .ok _
    · have hinner : s.AllHold Scalar.AllMapped := fun i hi => hall i (hi.trans hs)
      exact (mapped_scalars hinner whole hwhole part hpart).mapped
  · intro before op after start q f hops hf hstart hq
    obtain ⟨entity, -, rfl⟩ := Environment.start_eq_ok hstart
    simp only [Query.bodies, hops, List.flatMap_append, List.flatMap_cons,
      List.forall_mem_append] at hbodies
    have hagrees : ∀ condition : Bool, (condition = true → q.isClosed = true) →
        (q.pushDownIf condition).Agrees entity := fun condition hcondition =>
      Environment.Steps.agrees ((Environment.applyAll_steps hq hbodies.1).trans
        (Environment.pushDownIf_steps hcondition))
    have hsource := (hbodies.2.1 f.body hf).1
    simp only [List.forall_mem_cons, List.not_mem_nil, false_implies, implies_true, and_true]
    exact ⟨(hagrees _ ShapedDraft.isClosed_of_distinct).inline_entityFound hsource,
      (hagrees _ id).inline_entityFound hsource⟩

/-- A compiler reports no internal error for the last named persons. -/
theorem lastNamed_never_bug :
    (∀ e ∈ Query.lastNamed.bodies, e.isSource = true ∧ e.hasDistinctMembers = true) ∧
    (∀ d, (Compiler.new .persons .standard).lower .lastNamed = .error d → ¬ d.IsBug) ∧
    ∀ shaped, (Compiler.new .persons .standard).lower .lastNamed = .ok shaped →
      ∀ (formatter : Formatter) (d : Diagnostic),
        (Compiler.new .persons .standard).generate formatter shaped = .error d → ¬ d.IsBug := by
  have hbodies : ∀ e ∈ Query.lastNamed.bodies, e.isSource = true ∧ e.hasDistinctMembers = true := by
    decide
  refine ⟨hbodies, ?_, fun shaped h formatter => ?_⟩
  · exact (compiler_never_bug .persons .standard id .lastNamed hbodies).1
  · exact ((compiler_never_bug .persons .standard formatter .lastNamed hbodies).2.1 shaped h).1

end QueryPipeline
