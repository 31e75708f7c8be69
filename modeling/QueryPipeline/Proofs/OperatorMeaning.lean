import QueryPipeline.Proofs.DraftMeaning

/-!
# Operators keep the meaning of a query

What an operator makes of a query stands for the sequence that the operator makes of the sequence before, as
long as bodies are plain. A push-down before an operator changes nothing, and after it every operator changes
the one part of the draft that its meaning is about. Only a key that rows are ordered by already is left out,
so in general the two sequences are alike and not the same.
-/

set_option autoImplicit false

namespace QueryPipeline

open Sql

variable {V : Type} [DecidableEq V] {I : Interpretation V} {db : Database V}

/-- A constant that is true holds over every row. -/
theorem Sql.Scalar.holds_of_isTrueConstant {s : Scalar} (h : s.isTrueConstant = true) (ρ : Bindings V) :
    I.holds (s.eval I db ρ) = true := by
  unfold isTrueConstant at h
  split at h
  · rename_i hnode
    rw [s.eval_eq, hnode, Node.eval, Interpretation.holds, I.truth_true, decide_eq_true_eq]
  · cases h

/-- The rows that one more condition keeps. -/
theorem Sql.Draft.kept_restrict (d : Draft) (s : Scalar) :
    (d.restrict s).kept I db = (d.kept I db).filter fun ρ => I.holds (s.eval I db ρ) := by
  unfold restrict
  split
  · rename_i htrue
    exact (List.filter_eq_self.2 fun ρ _ => s.holds_of_isTrueConstant htrue ρ).symm
  · rw [kept, kept, List.filter_filter]
    refine List.filter_congr fun ρ _ => ?_
    cases d.predicate with
    | none => simp [evalOption]
    | some known =>
      simp only [evalOption, Option.all_some, Scalar.eval_conjunction, Scalar.eval_asConditionForm,
        Interpretation.holds, I.truth_and, Bool.decide_and]
      exact Bool.and_comm _ _

/-- A function that returns its argument means its argument. -/
theorem Lambda.meaning_of_isIdentity {f : Lambda} (h : f.isIdentity = true) {W : Type}
    (I : Interpretation W) (d : Datum W) : f.meaning I d = d := by
  unfold isIdentity at h
  split at h
  · rename_i name hbody
    simp [Lambda.meaning, hbody, Expr.meaning, bindParam, eq_of_beq h]
  · cases h

namespace ShapedDraft

/-- The form of what a query reads. -/
def form (q : ShapedDraft) : Form := q.read .trivial (fun _ _ => []) fun _ _ => ()

/-- Every element of the sequence of a draft has been read from a row. -/
theorem mem_sequence {q : ShapedDraft} {r : Datum V × List (KeyValue V)} (h : r ∈ q.sequence I db) :
    ∃ ρ, r.1 = q.read I db ρ := by
  have hmem := Sequence.mem_limitedBy h
  split at hmem
  · rw [makeDistinct_elements] at hmem
    obtain ⟨d, hd, rfl⟩ := List.mem_map.1 hmem
    obtain ⟨ρ, -, rfl⟩ := List.mem_map.1 (List.mem_eraseDups.1 hd)
    exact ⟨ρ, rfl⟩
  · obtain ⟨ρ, -, rfl⟩ := List.mem_map.1 hmem
    exact ⟨ρ, rfl⟩

/-- Nothing is missing in what a query reads. -/
theorem Agrees.read_isComplete {entity : EntityType} {q : ShapedDraft} (h : q.Agrees entity)
    (ρ : Bindings V) : (q.read I db ρ).isComplete = true :=
  h.fits.isComplete fun _ hp => h.found hp

/-- A draft that sees all its rows stands for these rows. -/
theorem sequence_of_open {q : ShapedDraft} (h : q.isClosed = false) :
    q.sequence I db = q.elements I db := by
  obtain ⟨hlimit, hoffset, hdistinct⟩ := isClosed_eq_false.1 h
  rw [sequence, Draft.offsetCount, Draft.limitCount, hlimit, hoffset, hdistinct]
  rfl

/-- The parts of a query agree, and what it reads has a form. -/
structure Sound (entity : EntityType) (form : Form) (q : ShapedDraft) : Prop where
  agrees : q.Agrees entity
  settled : q.Settled
  form_eq : q.form = form

namespace Sound

variable {entity : EntityType} {form : Form} {q q' : ShapedDraft}

/-- A sound query that is pushed down on a condition is sound. -/
theorem pushDownIf (h : q.Sound entity form) (condition : Bool) :
    (q.pushDownIf condition).Sound entity form := by
  unfold ShapedDraft.pushDownIf
  split
  · exact ⟨h.agrees.pushDown, nofun, (q.read_pushDown _).trans h.form_eq⟩
  · exact h

/-- A query that is pushed down on a condition yields the same rows in the same order. -/
theorem sequence_pushDownIf (h : q.Sound entity form) (condition : Bool) :
    (q.pushDownIf condition).sequence I db = q.sequence I db := by
  unfold ShapedDraft.pushDownIf
  split
  · exact sequence_pushDown h.agrees h.settled
  · rfl

/-- A body that becomes a scalar over a query means the value of the scalar. -/
theorem meaning_eq (h : q.Sound entity form) {env : Environment} {f : Lambda}
    (hplain : f.isPlain form = true) {asValue : Bool} {s : Scalar}
    (hs : (env.scope q).lowerIn (f.inline q.shaper) asValue = .ok (some s)) (ρ : Bindings V) :
    f.meaning I (q.read I db ρ) = .value (s.eval I db ρ) := by
  obtain ⟨s', hs', rfl⟩ := Scope.lowerIn_eq_some hs
  have hadmitted := f.isAdmittedOver_inline hplain h.agrees.fits.isNull h.form_eq
    (h.agrees.fits.isAdmittedOver _)
  have hmeaning := hs'.meaning hadmitted I db ρ
  rw [f.meaning_inline (Expr.isPlainSource_of_isPlain hplain).1 h.agrees.fits.isNull] at hmeaning
  rw [Scalar.eval_inContext, Catalog.eval_resolve]
  exact hmeaning

/-- A query stands for the rows that remain when it is opened. -/
theorem sequence_opened (h : q.Sound entity form) : q.sequence I db = q.opened.elements I db :=
  (h.sequence_pushDownIf _).symm.trans (sequence_of_open q.opened_isClosed)

/-- An expression without parameters that becomes a scalar means its value over any row. -/
theorem closedMeaning_eq {env : Environment} {rows : Expr}
    (hplain : rows.isPlain (fun _ => .missing) = true) {s : Scalar}
    (hs : (env.scope q).value rows = .ok (some s)) (ρ : Bindings V) :
    rows.closedMeaning I = .value (s.eval I db ρ) := by
  obtain ⟨s', hs', rfl⟩ := Scope.lowerIn_eq_some hs
  have hmeaning := hs'.meaning (Expr.isAdmittedOver_of_isPlain hplain _) I db ρ
  rw [rows.meaning_of_source (fun _ => .missing) (Expr.isPlainSource_of_isPlain hplain).1] at hmeaning
  rw [Scalar.eval_inContext, Catalog.eval_resolve]
  exact hmeaning

end Sound

/-- A draft with another shape stands for what a function makes of its elements, when this is what is read
with the new shaper. -/
theorem sequence_project {q : ShapedDraft} {shaper : Expr} {shape : Shape} {g : Datum V → Datum V}
    (hdistinct : q.draft.distinct = false)
    (hread : ∀ ρ, ({ q.mapDraft (·.project shape) with shaper } : ShapedDraft).read I db ρ =
      g (q.read I db ρ)) :
    ({ q.mapDraft (·.project shape) with shaper } : ShapedDraft).sequence I db =
      (q.sequence I db).select g := by
  have helements : ({ q.mapDraft (·.project shape) with shaper } : ShapedDraft).elements I db =
      (q.elements I db).select g := by
    simp only [elements, hread, Sequence.select, List.map_map]
    rfl
  have hnew : (q.mapDraft (·.project shape)).draft.distinct = false := hdistinct
  simp only [sequence, hdistinct, hnew, helements, Bool.false_eq_true, if_false]
  exact Sequence.limitedBy_select g _ _ _

section Elements

variable {q : ShapedDraft} {s : Scalar} {g : Datum V → Datum V}
  (hg : ∀ ρ, g (q.read I db ρ) = .value (s.eval I db ρ))
include hg

/-- What becomes a scalar has a value for every element. -/
theorem all_isValue : ((q.elements I db).all fun r => (g r.1).isValue) = true := by
  refine List.all_eq_true.2 fun r hr => ?_
  obtain ⟨ρ, -, rfl⟩ := List.mem_map.1 hr
  simp only [hg]
  rfl

/-- A restricted draft has the elements that meet the condition. -/
theorem elements_restrict :
    (q.mapDraft (·.restrict s)).elements I db = (q.elements I db).restrict I g := by
  have hread : ∀ ρ, (q.mapDraft (·.restrict s)).read I db ρ = q.read I db ρ := fun ρ => by
    simp only [read, mapDraft, Draft.shape_restrict]
  have hkeys : (q.mapDraft (·.restrict s)).draft.orderings = q.draft.orderings :=
    q.draft.orderings_restrict s
  simp only [elements, hread, hkeys, Sequence.restrict, List.filter_map]
  rw [show (q.mapDraft (·.restrict s)).draft.kept I db = _ from q.draft.kept_restrict s]
  simp only [Function.comp_def, hg, Sequence.valueOf]

/-- A draft that is ordered by a scalar has its elements in the order of the values of the scalar. -/
theorem elements_orderBy (ascending : Bool) :
    (q.mapDraft (·.orderBy ⟨s, ascending⟩)).elements I db =
      (q.elements I db).orderBy I g ascending := by
  simp only [elements, Sequence.orderBy, List.map_map, Function.comp_def, hg, Sequence.valueOf]
  rfl

/-- A key that is new is added to the keys of every element. -/
theorem elements_thenBy (ascending : Bool) (hnew : (q.draft.orderings.any (·.expr = s)) = false) :
    (q.mapDraft (·.thenBy ⟨s, ascending⟩)).elements I db =
      (q.elements I db).thenBy I g ascending := by
  have hthenBy : q.draft.thenBy ⟨s, ascending⟩ =
      { q.draft with orderings := q.draft.orderings ++ [⟨s, ascending⟩] } := by
    simp [Draft.thenBy, hnew]
  simp only [elements, mapDraft, hthenBy, Sequence.thenBy, List.map_map, Function.comp_def, hg,
    Sequence.valueOf, evalKeys_eq, List.map_append]
  rfl

/-- A key that rows are ordered by already is equal where all keys are. -/
theorem known_of_any (ascending : Bool) (hknown : (q.draft.orderings.any (·.expr = s)) = true) :
    ∀ r ∈ q.elements I db, ∀ r' ∈ q.elements I db, I.compareKeys r.2 r'.2 = .eq →
      I.compareKey ⟨Sequence.valueOf I (g r.1), ascending⟩ ⟨Sequence.valueOf I (g r'.1), ascending⟩
        = .eq := by
  intro r hr r' hr' heq
  obtain ⟨ρ, -, rfl⟩ := List.mem_map.1 hr
  obtain ⟨ρ', -, rfl⟩ := List.mem_map.1 hr'
  obtain ⟨k, hk, hexpr⟩ := List.any_eq_true.1 hknown
  obtain rfl : k.expr = s := of_decide_eq_true hexpr
  simp only [hg, Sequence.valueOf]
  exact (I.compareKey_eq_eq ascending).2 (compare_of_compareKeys heq k hk)

end Elements

namespace Sound

variable {entity : EntityType} {form : Form} {q q' : ShapedDraft}

/-- A condition keeps the elements that it means to be true. -/
theorem evaluate_filter (h : q.Sound entity form) {env : Environment} {f : Lambda}
    (hplain : f.isPlain form = true) (happly : env.filter q f = .ok q') :
    q'.form = form ∧ (Operator.filter f).evaluate? I (q.sequence I db) = some (q'.sequence I db) := by
  obtain ⟨s, hs, happly⟩ := bind_eq_ok.1 happly
  cases happly
  have hsound : q.opened.Sound entity form := h.pushDownIf _
  have hmeaning : ∀ ρ, f.meaning I (q.opened.read I db ρ) = .value (s.eval I db ρ) := fun ρ =>
    hsound.meaning_eq hplain (Environment.required_eq_ok hs) ρ
  have hopen : (q.opened.mapDraft (·.restrict s)).isClosed = false :=
    (q.opened.isClosed_restrict s).trans q.opened_isClosed
  refine ⟨?_, ?_⟩
  · rw [← hsound.form_eq]
    simp only [ShapedDraft.form, read, mapDraft, Draft.shape_restrict]
  · rw [h.sequence_opened, sequence_of_open hopen, elements_restrict hmeaning, Operator.evaluate?,
      if_pos (all_isValue hmeaning)]

/-- A selector makes of every element what it means. -/
theorem evaluate_select (h : q.Sound entity form) {env : Environment} {f : Lambda}
    (hplain : f.isPlain form = true) (happly : env.select q f = .ok q')
    (hagrees : q'.Agrees entity) :
    q'.form = f.meaning .trivial form ∧
      (Operator.select f).evaluate? I (q.sequence I db) = some (q'.sequence I db) := by
  unfold Environment.select at happly
  split at happly
  · rename_i hidentity
    cases happly
    have hmeaning : ∀ {W : Type} (I : Interpretation W) (d : Datum W), f.meaning I d = d := fun I d =>
      f.meaning_of_isIdentity hidentity I d
    refine ⟨h.form_eq.trans (hmeaning _ _).symm, ?_⟩
    have hsame : (q.sequence I db).select (f.meaning I) = q.sequence I db := by
      simp [Sequence.select, hmeaning]
    rw [Operator.evaluate?, if_pos, hsame]
    refine List.all_eq_true.2 fun r hr => ?_
    obtain ⟨ρ, hρ⟩ := mem_sequence hr
    rw [hmeaning, hρ]
    exact h.agrees.read_isComplete ρ
  · obtain ⟨⟨shaper, shape⟩, hbound, happly⟩ := bind_eq_ok.1 happly
    cases happly
    have hsound : (q.pushDownIf q.draft.distinct).Sound entity form := h.pushDownIf _
    have hdistinct := q.distinct_pushDownIf
    rw [← h.sequence_pushDownIf q.draft.distinct]
    -- from here on only the query after the push-down matters
    generalize q.pushDownIf q.draft.distinct = q₁ at hbound hagrees hsound hdistinct ⊢
    have hread : ∀ {W : Type} [DecidableEq W] (I : Interpretation W) (db : Database W) (ρ : Bindings W),
        ({ q₁.mapDraft (·.project shape) with shaper } : ShapedDraft).read I db ρ =
          f.meaning I (q₁.read I db ρ) := by
      intro W _ I db ρ
      have hadmitted := f.isAdmittedOver_inline hplain hsound.agrees.fits.isNull hsound.form_eq
        (hsound.agrees.fits.isAdmittedOver _)
      have hmeaning := (Scope.bind_bound _ _ _ _ hbound).meaning hadmitted
        (fun _ hp => hagrees.found hp) I db ρ
      rw [f.meaning_inline (Expr.isPlainSource_of_isPlain hplain).1 hsound.agrees.fits.isNull] at hmeaning
      exact hmeaning
    refine ⟨?_, ?_⟩
    · rw [ShapedDraft.form, hread, ← hsound.form_eq]
      rfl
    · rw [sequence_project hdistinct (hread I db), Operator.evaluate?, if_pos]
      refine List.all_eq_true.2 fun r hr => ?_
      obtain ⟨ρ, hρ⟩ := mem_sequence hr
      rw [hρ, ← hread]
      exact hagrees.read_isComplete ρ

/-- An ordering by a function alone. -/
theorem evaluate_orderBy (h : q.Sound entity form) {env : Environment} {f : Lambda} {descending : Bool}
    (hplain : f.isPlain form = true) (happly : env.order q f descending Draft.orderBy = .ok q') :
    q'.form = form ∧
      (Operator.orderBy f descending).evaluate? I (q.sequence I db) = some (q'.sequence I db) := by
  obtain ⟨s, hs, happly⟩ := bind_eq_ok.1 happly
  cases happly
  have hsound : q.opened.Sound entity form := h.pushDownIf _
  have hmeaning : ∀ ρ, f.meaning I (q.opened.read I db ρ) = .value (s.eval I db ρ) := fun ρ =>
    hsound.meaning_eq hplain (Environment.required_eq_ok hs) ρ
  have hopen : (q.opened.mapDraft (·.orderBy ⟨s, !descending⟩)).isClosed = false := q.opened_isClosed
  refine ⟨hsound.form_eq, ?_⟩
  rw [h.sequence_opened, sequence_of_open hopen, elements_orderBy hmeaning, Operator.evaluate?,
    if_pos (all_isValue hmeaning)]

/-- An ordering by a function after the ones before. -/
theorem evaluate_thenBy (h : q.Sound entity form) {env : Environment} {f : Lambda} {descending : Bool}
    (hplain : f.isPlain form = true) (happly : env.order q f descending Draft.thenBy = .ok q')
    {t : Sequence V} (halike : (q.sequence I db).Alike I t) :
    q'.form = form ∧ ∃ t', (Operator.thenBy f descending).evaluate? I t = some t' ∧
      (q'.sequence I db).Alike I t' := by
  obtain ⟨s, hs, happly⟩ := bind_eq_ok.1 happly
  cases happly
  have hsound : q.opened.Sound entity form := h.pushDownIf _
  have hmeaning : ∀ ρ, f.meaning I (q.opened.read I db ρ) = .value (s.eval I db ρ) := fun ρ =>
    hsound.meaning_eq hplain (Environment.required_eq_ok hs) ρ
  have hopen : (q.opened.mapDraft (·.thenBy ⟨s, !descending⟩)).isClosed = false :=
    (q.opened.isClosed_thenBy _).trans q.opened_isClosed
  refine ⟨?_, ?_⟩
  · rw [← hsound.form_eq]
    simp only [ShapedDraft.form, read, mapDraft, Draft.shape_thenBy]
  · rw [h.sequence_opened] at halike
    have hguard := halike.all_eq fun d => (f.meaning I d).isValue
    rw [all_isValue hmeaning] at hguard
    refine ⟨_, by rw [Operator.evaluate?, if_pos hguard.symm], ?_⟩
    rw [sequence_of_open hopen]
    -- a key that is known already is not added, since it cannot decide what it has not decided before
    cases hany : q.opened.draft.orderings.any (·.expr = s) with
    | false =>
      rw [elements_thenBy hmeaning _ hany]
      exact halike.thenBy _ _
    | true =>
      have hsame : q.opened.mapDraft (·.thenBy ⟨s, !descending⟩) = q.opened := by
        simp [mapDraft, Draft.thenBy, hany]
      rw [hsame]
      exact halike.thenBy_right _ _ (known_of_any hmeaning _ hany)

/-- The rows at the front are left out. -/
theorem evaluate_skip (h : q.Sound entity form) {env : Environment} {rows : Expr}
    (hplain : rows.isPlain (fun _ => .missing) = true) (happly : env.apply q (.skip rows) = .ok q') :
    q'.form = form ∧ (Operator.skip rows).evaluate? I (q.sequence I db) = some (q'.sequence I db) := by
  obtain ⟨s, hs, happly⟩ := bind_eq_ok.1 happly
  cases happly
  refine ⟨(h.pushDownIf _).form_eq, ?_⟩
  obtain ⟨hlimit, -, hdistinct⟩ := isClosed_eq_false.1 q.opened_isClosed
  have hcount : rows.closedMeaning I = .value (s.eval I db I.noBindings) :=
    closedMeaning_eq hplain (Environment.required_eq_ok hs) I.noBindings
  rw [h.sequence_opened, Operator.evaluate?, hcount]
  simp only [sequence, Draft.limitCount, Draft.offsetCount, mapDraft, Draft.skip, hlimit, hdistinct,
    evalOption]
  rfl

/-- So many rows at the front are kept. -/
theorem evaluate_take (h : q.Sound entity form) {env : Environment} {rows : Expr}
    (hplain : rows.isPlain (fun _ => .missing) = true) (happly : env.apply q (.take rows) = .ok q') :
    q'.form = form ∧ (Operator.take rows).evaluate? I (q.sequence I db) = some (q'.sequence I db) := by
  obtain ⟨s, hs, happly⟩ := bind_eq_ok.1 happly
  cases happly
  refine ⟨(h.pushDownIf _).form_eq, ?_⟩
  have hlimit := q.limit_pushDownIf
  have hcount : rows.closedMeaning I = .value (s.eval I db I.noBindings) :=
    closedMeaning_eq hplain (Environment.required_eq_ok hs) I.noBindings
  rw [← h.sequence_pushDownIf q.draft.limit.isSome, Operator.evaluate?, hcount]
  simp only [sequence, Draft.limitCount, Draft.offsetCount, mapDraft, Draft.take, hlimit, evalOption]
  rfl

/-- Repetitions are left out, whether or not they have been before. -/
theorem evaluate_distinct (h : q.Sound entity form) {env : Environment}
    (happly : env.apply q .distinct = .ok q') :
    q'.form = form ∧ Operator.distinct.evaluate? I (q.sequence I db) = some (q'.sequence I db) := by
  cases happly
  refine ⟨(h.pushDownIf _).form_eq, ?_⟩
  rw [← h.sequence_pushDownIf q.draft.isLimited, Operator.evaluate?]
  have hlimited := q.isLimited_pushDownIf
  generalize q.pushDownIf q.draft.isLimited = q₁ at hlimited ⊢
  obtain ⟨hlimit, hoffset⟩ : q₁.draft.limit = none ∧ q₁.draft.offset = none := by
    simpa [Draft.isLimited] using hlimited
  have hsequence : q₁.sequence I db =
      if q₁.draft.distinct then (q₁.elements I db).makeDistinct else q₁.elements I db := by
    rw [sequence, Draft.limitCount, Draft.offsetCount, hlimit, hoffset]
    rfl
  have hdistinct : (q₁.mapDraft Draft.makeDistinct).sequence I db = (q₁.elements I db).makeDistinct := by
    have hlimits : (q₁.mapDraft Draft.makeDistinct).sequence I db =
        ((q₁.mapDraft Draft.makeDistinct).elements I db).makeDistinct := by
      simp only [sequence, Draft.limitCount, Draft.offsetCount, mapDraft, Draft.makeDistinct, hlimit,
        hoffset]
      rfl
    rw [hlimits, makeDistinct_elements, makeDistinct_elements]
    rfl
  rw [hsequence, hdistinct]
  -- a draft without repetitions stays open to the operator, which then has nothing left to do
  split
  · rw [Sequence.makeDistinct_makeDistinct]
  · rfl

end Sound

end ShapedDraft

end QueryPipeline
