import QueryPipeline.Proofs.OperatorMeaning

/-!
# Lowering preserves meaning

The rows of the select that a pipeline becomes, read through its slots and its shaper, are the results of the
pipeline on lists. This holds under every interpretation of constants, parameters and operators and on all
tables, for pipelines of operators on lists with plain bodies. The induction is on the operators: after each
of them the draft stands for a sequence that is like the one on lists.
-/

set_option autoImplicit false

namespace QueryPipeline

open Sql

variable {V : Type} [DecidableEq V] {I : Interpretation V} {db : Database V}

/-- The bodies of an operator with a form are ones that a pipeline may contain. -/
theorem Operator.isPlainSource_of_form? {op : Operator} {form form' : Form}
    (h : op.form? form = some form') : ∀ e ∈ op.bodies, e.IsPlainSource := by
  have hguard : ∀ {param : String → Form} {e : Expr} {result : Form},
      (if e.isPlain param then some result else none) = some form' → e.IsPlainSource := by
    intro param e result h
    split at h
    · exact Expr.isPlainSource_of_isPlain ‹_›
    · cases h
  cases op with
  | filter f | select f | orderBy f _ | thenBy f _ =>
    exact List.forall_mem_singleton.2 (hguard h)
  | skip rows | take rows => exact List.forall_mem_singleton.2 (hguard h)
  | distinct => exact nofun
  | _ => cases h

namespace Environment

variable {env : Environment} {entity : EntityType} {form form' : Form} {q q' : ShapedDraft}

/-- No step leaves a draft without repetitions with orderings. -/
theorem Step.settled {A : Expr → Prop} (h : q.Settled) (hstep : env.Step A q q') : q'.Settled := by
  have hopen : ∀ d : Draft, q.isClosed = false → d.distinct = q.draft.distinct →
      d.distinct = true → d.orderings = [] := by
    intro d hq hsame hdistinct
    rw [hsame, (ShapedDraft.isClosed_eq_false.1 hq).2.2] at hdistinct
    cases hdistinct
  have hrestrict : ∀ s : Scalar, q.isClosed = false → (q.mapDraft (·.restrict s)).Settled :=
    fun s hq => hopen _ hq (q.draft.distinct_restrict s)
  cases hstep with
  | pushDown _ => exact nofun
  | restrict hq _ _ => exact hrestrict _ hq
  | exclude hq _ _ => exact hrestrict _ hq
  | orderBy _ hq _ _ => exact hopen _ hq rfl
  | thenBy _ hq _ _ => exact hopen _ hq (q.draft.distinct_thenBy _)
  | makeDistinct _ => exact fun _ => rfl
  | reverse _ =>
    intro hdistinct
    show q.draft.orderings.map _ = []
    rw [h hdistinct, List.map_nil]
  | unordered _ => exact fun _ => rfl
  | existence _ => exact nofun
  | _ => exact h

/-- An operator makes of a sound query one that stands for what the operator makes of its sequence. -/
theorem apply_simulates {op : Operator} (h : q.Sound entity form) (hform : op.form? form = some form')
    (happly : env.apply q op = .ok q') {t : Sequence V} (halike : (q.sequence I db).Alike I t) :
    q'.Sound entity form' ∧ ∃ t', op.evaluate? I t = some t' ∧ (q'.sequence I db).Alike I t' := by
  have hsteps := apply_steps happly (Operator.isPlainSource_of_form? hform)
  have hagrees : q'.Agrees entity := hsteps.preserve (fun _ _ h hstep => hstep.agrees h) h.agrees
  have hsettled : q'.Settled := hsteps.preserve (fun _ _ h hstep => hstep.settled h) h.settled
  have hexact : q'.form = form' ∧ op.evaluate? I (q.sequence I db) = some (q'.sequence I db) →
      q'.Sound entity form' ∧ ∃ t', op.evaluate? I t = some t' ∧ (q'.sequence I db).Alike I t' :=
    fun h => ⟨⟨hagrees, hsettled, h.1⟩, halike.evaluate? h.2⟩
  cases op with
  | filter f =>
    obtain ⟨hplain, ⟨⟩⟩ := Option.ite_none_right_eq_some.1 hform
    exact hexact (h.evaluate_filter hplain happly)
  | select f =>
    obtain ⟨hplain, ⟨⟩⟩ := Option.ite_none_right_eq_some.1 hform
    exact hexact (h.evaluate_select hplain happly hagrees)
  | orderBy f descending =>
    obtain ⟨hplain, ⟨⟩⟩ := Option.ite_none_right_eq_some.1 hform
    exact hexact (h.evaluate_orderBy hplain happly)
  | thenBy f descending =>
    obtain ⟨hplain, ⟨⟩⟩ := Option.ite_none_right_eq_some.1 hform
    -- the draft may leave the key out, so its sequence is not the one on lists but like it
    obtain ⟨hform, hevaluate⟩ := h.evaluate_thenBy hplain happly halike
    exact ⟨⟨hagrees, hsettled, hform⟩, hevaluate⟩
  | skip rows =>
    obtain ⟨hplain, ⟨⟩⟩ := Option.ite_none_right_eq_some.1 hform
    exact hexact (h.evaluate_skip hplain happly)
  | take rows =>
    obtain ⟨hplain, ⟨⟩⟩ := Option.ite_none_right_eq_some.1 hform
    exact hexact (h.evaluate_take hplain happly)
  | distinct =>
    cases hform
    exact hexact (h.evaluate_distinct happly)
  | _ => cases hform

/-- What some operators make of a sound query stands for what they make of its sequence. -/
theorem applyAll_simulates {ops : List Operator} (h : q.Sound entity form)
    (hform : ops.foldlM (fun form op => Operator.form? form op) form = some form')
    (happly : env.applyAll q ops = .ok q') {t : Sequence V} (halike : (q.sequence I db).Alike I t) :
    q'.Sound entity form' ∧
      ∃ t', ops.foldlM (fun s op => Operator.evaluate? I s op) t = some t' ∧
        (q'.sequence I db).Alike I t' := by
  induction ops generalizing q form t with
  | nil =>
    cases hform
    cases happly
    exact ⟨h, t, rfl, halike⟩
  | cons op rest ih =>
    unfold applyAll at happly
    split at happly
    · obtain ⟨q₁, hop, happly⟩ := bind_eq_ok.1 happly
      rw [List.foldlM_cons] at hform
      obtain ⟨form₁, hform₁, hform⟩ := Option.bind_eq_some_iff.1 hform
      obtain ⟨h₁, t₁, ht₁, halike₁⟩ := apply_simulates h hform₁ hop halike
      obtain ⟨h', t', ht', halike'⟩ := ih h₁ hform happly halike₁
      refine ⟨h', t', ?_, halike'⟩
      rw [List.foldlM_cons, ht₁]
      exact ht'
    · cases happly

/-- A row of the query over the table of an entity is read as its element. -/
theorem start_read (env : Environment) (entity : EntityType) (ρ : Bindings V) :
    (env.startQuery entity).read I db ρ = entity.datum (ρ (tableAlias entity.tableName)) := by
  simp [startQuery, ShapedDraft.read, Expr.meaning, Shape.datumAt, Projected.datum, Draft.ofTable,
    EntityType.datum, propertyColumn, Scalar.column, Node.eval]

/-- The query that returns the rows of an entity stands for these entities. -/
theorem start_simulates (env : Environment) (entity : EntityType) (I : Interpretation V)
    (db : Database V) :
    (env.startQuery entity).Sound entity (entity.datum fun _ => ()) ∧
      (env.startQuery entity).sequence I db =
        (db entity.tableName entity.schema).map fun row => (entity.datum row, []) := by
  refine ⟨⟨start_agrees env entity, nofun, start_read env entity _⟩, ?_⟩
  have hkept : (env.startQuery entity).draft.kept I db =
      (db entity.tableName entity.schema).map fun row =>
        Interpretation.bindRow (tableAlias entity.tableName) row I.noBindings := by
    show ((db entity.tableName entity.schema).flatMap fun row =>
      [Interpretation.bindRow (tableAlias entity.tableName) row I.noBindings]).filter
        (fun _ => true) = _
    simp [List.map_eq_flatMap]
  rw [ShapedDraft.sequence_of_open rfl, ShapedDraft.elements, hkept, List.map_map]
  refine List.map_congr_left fun row _ => ?_
  have hrow : Interpretation.bindRow (tableAlias entity.tableName) row I.noBindings
      (tableAlias entity.tableName) = row := by
    funext column
    exact if_pos rfl
  rw [Function.comp_apply, start_read, hrow]
  rfl

end Environment

/-- The rows of the select that a pipeline becomes are read as the results of the pipeline on lists. The
pipeline consists of operators on lists with plain bodies; its results on lists are then always defined. -/
theorem lower_preserves_meaning (env : Environment) (query : Query) (shaped : ShapedQuery)
    (I : Interpretation V) (db : Database V) (h : env.lower query = .ok shaped)
    (hplain : query.isPlain env.model = true) :
    query.evaluate? I db env.model =
      some ((shaped.select.rows I db I.noBindings).map (shaped.datum I)) := by
  obtain ⟨start, hstart, h⟩ := bind_eq_ok.1 h
  obtain ⟨q, hq, h⟩ := bind_eq_ok.1 h
  cases h
  obtain ⟨entity, hentity, rfl⟩ := Environment.start_eq_ok hstart
  obtain ⟨hsound, hsequence⟩ := Environment.start_simulates env entity I db
  simp only [Query.isPlain, hentity] at hplain
  obtain ⟨form, hform⟩ := Option.isSome_iff_exists.1 hplain
  have halike : ((env.startQuery entity).sequence I db).Alike I
      ((env.startQuery entity).sequence I db) := by
    refine Sequence.Alike.refl fun r hr r' hr' => ?_
    rw [hsequence] at hr hr'
    obtain ⟨_, -, rfl⟩ := List.mem_map.1 hr
    obtain ⟨_, -, rfl⟩ := List.mem_map.1 hr'
    rfl
  obtain ⟨hq', t, ht, hresults⟩ := Environment.applyAll_simulates hsound hform hq halike
  rw [ShapedDraft.results_finish hq'.agrees hq'.settled, hresults.results_eq]
  rw [hsequence] at ht
  simp [Query.evaluate?, hentity, Function.comp_def, ht]

/-- Whole numbers that may be absent. A condition is one when it is true, zero when it is false, and absent
when it is unknown. -/
def Interpretation.numbers : Interpretation (Option Int) where
  constant
    | .integer n => some n.toInt
    | .boolean b => some b.toInt
    | _ => none
  parameter _ := none
  fragment _ := none
  binary
    | .equal, some a, some b => some (decide (a = b)).toInt
    | .lessThan, some a, some b => some (decide (a < b)).toInt
    | .add, some a, some b => some (a + b)
    | .and, some 0, _ | .and, _, some 0 => some 0
    | .and, some _, some _ => some 1
    | .coalesce, some a, _ => some a
    | .coalesce, none, b => b
    | _, _, _ => none
  not a := a.map fun a => (decide (a = 0)).toInt
  negate a := a.map (- ·)
  isNull a negated := some (a.isNone != negated).toInt
  function _ _ _ _ := none
  case
    | (some 1, result) :: _, _ => result
    | _, otherwise => otherwise.join
  existsIn found negated := some (found != negated).toInt
  like _ _ _ := none
  cast a := a
  truth a := a.map (· ≠ 0)
  compare a b := Ord.compare a b
  count a := (a.getD 0).toNat
  truth_true := rfl
  truth_and := by
    rintro (_ | a) (_ | b)
    · simp
    · by_cases hb : b = 0 <;> simp [hb]
    · by_cases ha : a = 0 <;> simp [ha]
    · by_cases ha : a = 0 <;> by_cases hb : b = 0 <;> simp [ha, hb]
  compare_trans := inferInstance

/-- The columns of four persons, of which the second has no name. Names are numbers here. -/
def personRows : Database (Option Int) := fun _ _ =>
  [(1, some 40), (2, none), (3, some 20), (4, some 40)].map fun (id, name) column =>
    if column = "id" then some id else if column = "name" then name else none

/-- The last named persons are the same on lists and in the rows of their select. -/
theorem lastNamed_preserves_meaning :
    ∃ shaped, (Compiler.new .persons .standard).environment.lower .lastNamed = .ok shaped ∧
      Query.lastNamed.isPlain (Compiler.new .persons .standard).environment.model = true ∧
      Query.lastNamed.evaluate? .numbers personRows (Compiler.new .persons .standard).environment.model =
        some ((shaped.select.rows .numbers personRows Interpretation.numbers.noBindings).map
          (shaped.datum .numbers)) := by
  have hplain : Query.lastNamed.isPlain (Compiler.new .persons .standard).environment.model = true := by
    decide +kernel
  obtain ⟨shaped, h⟩ :
      ∃ shaped, (Compiler.new .persons .standard).environment.lower .lastNamed = .ok shaped :=
    exists_of_isOk (by decide +kernel)
  exact ⟨shaped, h, hplain, lower_preserves_meaning _ .lastNamed shaped .numbers personRows h hplain⟩

-- of the last three persons the third and the fourth have names, and the third is left out
example : Query.lastNamed.evaluate? .numbers personRows .persons =
    some [.record [("who", .record [("id", .value (some 4)), ("name", .value (some 40))]),
      ("name", .value (some 40))]] := by
  cbv

end QueryPipeline
