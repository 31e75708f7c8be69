import QueryPipeline.Proofs.FilledMappings
import QueryPipeline.Proofs.LeadingLiterals
import QueryPipeline.Proofs.Nesting
import QueryPipeline.Proofs.WholeNumbers

/-!
# Keys that are no positions

A database takes a whole number in place of a key for the position of a projected column. A key is written as one
if its body is such a literal, and also if it only leads to one: through signs, conversions to the same kind,
members of a shape that is written out, or what an earlier selector projects. In pipelines without such keys and
selectors, no key of a select at any depth is written as a whole number.
-/

set_option autoImplicit false

namespace QueryPipeline

open Sql

/-- A literal is written as a whole number where it is converted to its own kind only. -/
def Sql.Catalog.writesWhole (catalog : Catalog) (kinds : List DataKind) (value : Literal) : Bool :=
  kinds.all (· == value.type.kind) &&
    (catalog.mapping? value.type.kind).any fun m => (m.write value).toOption.any (isWholeNumeral ·.toList)

/-- A body leads to no literal that is written as a whole number, and neither does a member of the shape that
it is. -/
def Expr.namesNoPosition (catalog : Catalog) (e : Expr) : Bool := !e.leadsTo catalog.writesWhole true true [] []

/-- No key of a select is written as a whole number. -/
def Sql.Select.SortsByValues (s : Select) : Prop := ∀ k ∈ s.orderings, k.expr.isWhole = false

/-- The bodies of an operator that become keys of orderings or are projected. -/
def Operator.valueBodies : Operator → List Expr
  | .select f | .orderBy f _ | .thenBy f _ => [f.body]
  | .sum f | .average f | .min f | .max f => bodyOf f
  | _ => []

/-- The keys and selectors of a pipeline. -/
def Query.valueBodies (q : Query) : List Expr := q.operators.flatMap Operator.valueBodies

section Scalars

namespace Sql

variable {catalog : Catalog} {s : Scalar}

/-- A mapping does not change whether a node has the form of a numeral. -/
theorem Node.isNumeralForm_withMapping (m : TypeMapping) (n : Node) :
    (n.withMapping m).isNumeralForm = n.isNumeralForm := by
  cases n with
  | binary op left right =>
    rw [withMapping]
    split <;> rfl
  | _ => rfl

/-- A node without the form of a numeral is no whole number. -/
theorem Node.isWhole_of_form {mapping : Option TypeMapping} {n : Node} (h : n.isNumeralForm = false) :
    n.isWhole mapping = false := by
  cases n with
  | constant _ | negate _ | fragment _ => cases h
  | _ => rfl

/-- A scalar is a whole number in every position. -/
theorem Scalar.isWhole_inContext (s : Scalar) (asValue : Bool) : (s.inContext asValue).isWhole = s.isWhole := by
  rw [isWhole_eq, isWhole_eq, inContext]

/-- A scalar of another form is not written as a whole number in any store type. -/
theorem Catalog.isWhole_resolve_of_form (h : s.node.isNumeralForm = false) :
    (catalog.resolve s).isWhole = false := by
  obtain ⟨node, type, _ | known, isCondition, asValue⟩ := s
  · unfold resolve
    split
    · rw [Scalar.withMapping, Scalar.isWhole, Node.isWhole_of_form (by rwa [Node.isNumeralForm_withMapping])]
    · rw [Scalar.isWhole, Node.isWhole_of_form h]
  · exact (Scalar.isWhole_eq _).trans (Node.isWhole_of_form h)

/-- In every position a scalar with the mapping of the catalog is a whole number when it is one in its own. -/
theorem Catalog.isWhole_resolve_inContext (s : Scalar) (asValue : Bool) :
    (catalog.resolve (s.inContext asValue)).isWhole = (catalog.resolve s).isWhole := by
  obtain ⟨node, type, _ | known, isCondition, _⟩ := s
  · cases h : catalog.mapping? type.kind <;> simp [resolve, h, Scalar.inContext, Scalar.withMapping,
      Scalar.isWhole_eq]
  · rfl

/-- The opposite of a number is written as a whole number just when the number is. -/
theorem Catalog.isWhole_resolve_negated (s : Scalar) :
    (catalog.resolve s.negated).isWhole = (catalog.resolve s).isWhole := by
  obtain ⟨node, type, _ | known, isCondition, asValue⟩ := s
  · cases h : catalog.mapping? type.kind <;>
      simp [resolve, h, Scalar.negated, Scalar.natural, Scalar.asValueForm, Scalar.inContext, Scalar.withMapping,
        Node.withMapping, Scalar.isWhole_eq, Node.isWhole]
  · rfl

/-- A value in another type of its kind is written as before. -/
theorem Catalog.isWhole_resolve_retype {type : DataType} (h : s.type.kind = type.kind) :
    (catalog.resolve { s with type }).isWhole = (catalog.resolve s).isWhole := by
  obtain ⟨node, known, _ | mapping, isCondition, asValue⟩ := s
  · have hkind : known.kind = type.kind := h
    cases hm : catalog.mapping? type.kind <;>
      simp [resolve, hkind, hm, Scalar.withMapping, Scalar.isWhole_eq]
  · rfl

/-- A literal in its own store type is written as a whole number where the catalog writes it as one. -/
theorem Catalog.isWhole_resolve_constant {value : Literal} {kinds : List DataKind}
    (hkinds : kinds.all (· == value.type.kind) = true) (h : catalog.writesWhole kinds value = false) :
    (catalog.resolve (.constant value value.type)).isWhole = false := by
  rw [writesWhole, hkinds, Bool.true_and] at h
  unfold resolve
  split
  · rename_i m _ hm
    rw [show (Scalar.constant value value.type).type.kind = value.type.kind from rfl] at hm
    rw [hm, Option.any_some] at h
    exact h
  · show (constantText none value).toOption.any (isWholeNumeral ·.toList) = false
    simp only [constantText]
    split <;> rfl

/-- A null is written as a word. -/
theorem Catalog.isWhole_resolve_null (type : DataType) :
    (catalog.resolve (.constant .null type)).isWhole = false := by
  unfold resolve
  split <;> rfl

/-- Built-in functions become no numerals. -/
theorem answered_isWhole (catalog : Catalog) : Answered catalog fun s => (catalog.resolve s).isWhole = false where
  function _ _ _ _ := catalog.isWhole_resolve_of_form rfl
  search _ _ _ _ := catalog.isWhole_resolve_of_form rfl
  binary op left right := by
    obtain ⟨l, r, hnode⟩ := catalog.binary_node op left right
    exact catalog.isWhole_resolve_of_form (by rw [hnode]; rfl)
  like _ _ _ := catalog.isWhole_resolve_of_form rfl
  castTo _ _ _ := catalog.isWhole_resolve_of_form rfl

end Sql

end Scalars

section Bodies

variable {scope : Scope}
  (hf : scope.functions.Answers scope.catalog fun s => (scope.catalog.resolve s).isWhole = false)
  (hd : ∀ s ∈ scope.draft.shape.scalars, (scope.catalog.resolve s).isWhole = false)

/-- A scalar is not written as a whole number in its own store type unless the body that it comes from leads to
a literal that is. -/
def Sql.Scalar.WholeOnlyFrom (catalog : Catalog) (e : Expr) (s : Scalar) : Prop :=
  ∀ inside kinds, e.leadsTo catalog.writesWhole true inside kinds [] = false →
    kinds.all (· == s.type.kind) = true → (catalog.resolve s).isWhole = false

include hf hd

/-- The rules bring in no whole number by themselves. -/
theorem Lowered.rules_wholeOnlyFrom :
    Lowered.Rules scope (fun _ => true) (Scalar.WholeOnlyFrom scope.catalog) where
  constant _ _ kinds h hkinds := by
    rw [Expr.leadsTo_constant] at h
    exact Catalog.isWhole_resolve_constant hkinds h
  null _ _ _ _ _ := scope.catalog.isWhole_resolve_null _
  parameter _ _ _ _ _ := scope.catalog.isWhole_resolve_of_form rfl
  draft _ _ h _ _ _ _ := hd _ h
  shapeMember hr hm h inside kinds hwhole hkinds :=
    h inside kinds (by rwa [Expr.leadsTo_member hr hm] at hwhole) hkinds
  member hp _ _ h _ _ _ _ := (hf _ hp).member h
  isNull _ _ _ _ _ := scope.catalog.isWhole_resolve_of_form rfl
  binary _ _ _ _ _ _ _ _ _ := (answered_isWhole scope.catalog).binary _ _ _
  not _ _ _ _ _ := scope.catalog.isWhole_resolve_of_form rfl
  negate h inside kinds hwhole hkinds := by
    rw [Expr.leadsTo_negate, Bool.true_and] at hwhole
    rw [Catalog.isWhole_resolve_negated]
    exact h inside kinds hwhole hkinds
  method hp _ _ _ h _ _ _ _ := (hf _ hp).method h
  conditional _ _ _ _ _ _ _ := scope.catalog.isWhole_resolve_of_form rfl
  convert {operand type value s} _ ho h inside kinds hwhole hkinds := by
    rw [Expr.leadsTo_convert] at hwhole
    unfold convertScalar at h
    split at h
    · rename_i hkind
      cases h
      rw [Catalog.isWhole_resolve_retype hkind]
      refine ho inside (type.kind :: kinds) hwhole ?_
      rw [hkind, List.all_cons, beq_self_eq_true, Bool.true_and]
      exact hkinds
    · obtain ⟨m, -, rfl⟩ := Option.map_eq_some_iff.1 h
      exact (answered_isWhole scope.catalog).castTo _ _ _

/-- A body that leads to no whole number becomes a scalar that is not written as one in its own store type. -/
theorem Lowered.isWhole_resolve {inside : Bool} {e : Expr} {s : Scalar} (h : Lowered scope e s)
    (he : e.leadsTo scope.catalog.writesWhole true inside [] [] = false) :
    (scope.catalog.resolve s).isWhole = false :=
  h.ofRules (rules_wholeOnlyFrom hf hd) (Expr.everywhere_of_forall (fun _ => rfl) e) inside [] he rfl

/-- The leaves of a selector that leads to no whole number become scalars that are not written as one. -/
theorem Bound.isWhole_resolve {e shaper : Expr} {path : MemberPath} {shape : Shape}
    (h : Bound scope e path shaper shape)
    (he : e.leadsTo scope.catalog.writesWhole true true [] [] = false) :
    ∀ s ∈ shape.scalars, (scope.catalog.resolve s).isWhole = false := by
  induction h with
  | leaf _ _ h =>
    rw [← Expr.leadsTo_reduceMembers] at he
    obtain ⟨s, hs, rfl⟩ := Scope.lowerIn_eq_some h
    have hwhole := hs.isWhole_resolve hf hd he
    simpa [Shape.scalars, Projected.scalars, Catalog.isWhole_resolve_inContext, Catalog.resolve_resolve] using hwhole
  | entity _ h =>
    intro s hs
    exact hd s (mem_scalars_of_lookup h (by simpa [Shape.scalars] using hs))
  | shapeNil _ => exact List.forall_mem_nil _
  | shapeCons hreduced _ _ ihm ihrest =>
    rw [← Expr.leadsTo_reduceMembers, hreduced, Expr.leadsTo_shape, anyLeadsTo, Bool.true_and,
      Bool.or_eq_false_iff] at he
    rw [Shape.scalars, List.flatMap_append]
    refine List.forall_mem_append.2 ⟨ihm he.1, ihrest ?_⟩
    rw [Expr.leadsTo_shape, he.2, Bool.and_false]

end Bodies

namespace Sql.Draft

variable {d : Draft} {k : SortKey}

/-- The keys of a subquery are among those of its draft. -/
theorem mem_orderings_of_subquery (h : k ∈ d.subquery.orderings) : k ∈ d.orderings := by
  have hkeys : k ∈ if d.isLimited then d.orderings else [] := h
  split at hkeys
  · exact hkeys
  · cases hkeys

/-- The keys of the select that a question is about are among those of the draft. -/
theorem mem_orderings_of_asked (h : k ∈ d.asked.finish.orderings) : k ∈ d.orderings := by
  unfold asked at h
  split at h
  · exact h
  · cases h

end Sql.Draft

namespace Environment

variable {env : Environment} {q q' : ShapedDraft}

/-- What rows are ordered by is not written as whole numbers, and neither is what they might be ordered by after
more operators. -/
structure SortsByValues (env : Environment) (q : ShapedDraft) : Prop where
  shaper : q.shaper.everywhere Expr.isShaperForm = true
  shape : ∀ s ∈ q.draft.shape.scalars, (env.catalog.resolve s).isWhole = false
  keys : ∀ k ∈ q.draft.orderings, k.expr.isWhole = false

namespace SortsByValues

/-- Another order by the same keys is as good as the one before. -/
theorem ofDraft (h : env.SortsByValues q) (hshaper : q'.shaper = q.shaper)
    (hshape : q'.draft.shape = q.draft.shape)
    (hkeys : ∀ k ∈ q'.draft.orderings, ∃ k' ∈ q.draft.orderings, k'.expr = k.expr) : env.SortsByValues q' := by
  refine ⟨hshaper ▸ h.shaper, hshape ▸ h.shape, fun k hk => ?_⟩
  obtain ⟨k', hk', he⟩ := hkeys k hk
  rw [← he]
  exact h.keys k' hk'

/-- A query that is pushed down sorts by values when it did before. -/
theorem pushDown (h : env.SortsByValues q) : env.SortsByValues q.pushDown := by
  have hcolumn : ∀ {s s' : Scalar}, OuterColumn q.draft.subqueryProjection.columns s s' →
      s'.node.isNumeralForm = false := by
    rintro s _ ⟨c, -, name, -, -, rfl⟩
    rfl
  have hdraft : q.pushDown.draft = q.draft.pushDown := rfl
  rw [Draft.pushDown_eq] at hdraft
  refine ⟨h.shaper, fun s' hs' => ?_, fun k' hk' => ?_⟩
  · rw [hdraft] at hs'
    obtain ⟨s, -, hs⟩ := q.draft.outerShape_related.exists_of_mem_scalars hs'
    exact env.catalog.isWhole_resolve_of_form (hcolumn hs)
  · rw [hdraft] at hk'
    obtain ⟨k, -, hk, -⟩ := exists_of_mem_right q.draft.outerOrderings_related hk'
    rw [Scalar.isWhole_eq, Node.isWhole_of_form (hcolumn hk)]

/-- A restricted query sorts by values when it did before. -/
theorem restrict (h : env.SortsByValues q) (s : Scalar) : env.SortsByValues (q.mapDraft (·.restrict s)) :=
  h.ofDraft rfl (Draft.shape_restrict _ _) fun k hk => ⟨k, by simpa [ShapedDraft.mapDraft] using hk, rfl⟩

/-- A single value that is no numeral ends the pipeline. -/
theorem returning (h : env.SortsByValues q) {s : Scalar} (hs : s.node.isNumeralForm = false) :
    env.SortsByValues (q.returning s) := by
  refine ⟨rfl, ?_, h.keys⟩
  simpa [ShapedDraft.returning, Draft.project, Shape.scalars, Projected.scalars] using
    env.catalog.isWhole_resolve_of_form hs

end SortsByValues

/-- What is computed from all rows is no numeral. -/
theorem IsAggregate.isNumeralForm {compute : Scalar → Except Diagnostic Scalar} (hcompute : env.IsAggregate compute)
    {input r : Scalar} (h : compute input = .ok r) : r.node.isNumeralForm = false := by
  obtain ⟨_, -, _, _, -, rfl | ⟨_, _, -, rfl⟩⟩ := hcompute.form h <;> rfl

section Keys

variable (hf : env.functions.Answers env.catalog fun s => (env.catalog.resolve s).isWhole = false)
include hf

/-- A key or value whose body leads to no whole number is not written as one. -/
theorem isWhole_of_value (h : env.SortsByValues q) {f : Lambda} (hbody : f.body.namesNoPosition env.catalog = true)
    {s : Scalar} (hs : (env.scope q).value (f.inline q.shaper) = .ok (some s)) : s.isWhole = false := by
  obtain ⟨s', hs', rfl⟩ := Scope.lowerIn_eq_some hs
  rw [Scalar.isWhole_inContext]
  rw [Expr.namesNoPosition, Bool.not_eq_true', ← Expr.leadsTo_inline f h.shaper] at hbody
  exact hs'.isWhole_resolve hf h.shape hbody

/-- Every step keeps keys that are not written as whole numbers, as long as keys and selectors lead to none. -/
theorem Step.sortsByValues (h : env.SortsByValues q)
    (hstep : env.Step (·.namesNoPosition env.catalog = true) q q') : env.SortsByValues q' := by
  cases hstep with
  | pushDown _ => exact h.pushDown
  | restrict _ _ _ | exclude _ _ _ => exact h.restrict _
  | project _ hbody hbound =>
    rw [Expr.namesNoPosition, Bool.not_eq_true', ← Expr.leadsTo_inline _ h.shaper] at hbody
    have hbound := Scope.bind_bound _ _ _ _ hbound
    exact ⟨hbound.shaper_forms, hbound.isWhole_resolve hf h.shape hbody, h.keys⟩
  | orderBy _ _ hbody hs =>
    exact ⟨h.shaper, h.shape, List.forall_mem_singleton.2 (isWhole_of_value hf h hbody hs)⟩
  | thenBy _ _ hbody hs =>
    refine ⟨h.shaper, by simpa [ShapedDraft.mapDraft] using h.shape, ?_⟩
    unfold ShapedDraft.mapDraft Draft.thenBy
    dsimp only
    split
    · exact h.keys
    · exact List.forall_mem_append.2
        ⟨h.keys, List.forall_mem_singleton.2 (isWhole_of_value hf h hbody hs)⟩
  | makeDistinct _ | unordered _ => exact ⟨h.shaper, h.shape, List.forall_mem_nil _⟩
  | reverse _ =>
    refine h.ofDraft rfl rfl fun k hk => ?_
    obtain ⟨k', hk', rfl⟩ := List.mem_map.1 hk
    exact ⟨k', hk', rfl⟩
  | existence negated =>
    refine ⟨rfl, fun s hs => ?_, List.forall_mem_nil _⟩
    cases List.mem_singleton.1 hs
    exact env.catalog.isWhole_resolve_of_form rfl
  | rowTotal _ _ _ => exact h.returning rfl
  | aggregate _ hcompute _ hr => exact h.returning (hcompute.isNumeralForm hr)
  | ensureNonEmpty _ =>
    refine ⟨?_, h.shape, h.keys⟩
    simp only [Expr.everywhere, Bool.and_eq_true]
    exact ⟨rfl, h.shaper⟩
  | skip _ _ _ | take _ _ _ | takeOne _ | expecting _ => exact ⟨h.shaper, h.shape, h.keys⟩

/-- The selects of such queries are not ordered by whole numbers either, at any depth. -/
theorem nests_sortsByValues (hkeep : env.functions.Keep env.catalog (Scalar.AsksOnly Select.SortsByValues)) :
    env.Nests (·.namesNoPosition env.catalog = true) env.SortsByValues (Scalar.AsksOnly Select.SortsByValues)
      Select.SortsByValues := by
  refine .ofQuestions hkeep (fun _ => ⟨rfl, fun s hs => ?_, List.forall_mem_nil _⟩)
    (fun h hstep => hstep.sortsByValues hf h) (fun h k hk => h.keys k (Draft.mem_orderings_of_subquery hk))
    (fun h k hk => h.keys k (Draft.mem_orderings_of_asked hk))
  simp only [startQuery, Draft.ofTable, Shape.scalars, Projected.scalars, List.flatMap_cons,
    List.flatMap_nil, List.append_nil, List.map_map, List.mem_map] at hs
  obtain ⟨property, -, rfl⟩ := hs
  exact env.catalog.isWhole_resolve_of_form rfl

end Keys

/-- Neither a query nor a select inside of it is ordered by whole numbers. -/
structure NestsSorted (env : Environment) (q : ShapedDraft) : Prop where
  sorts : env.SortsByValues q
  carries : q.draft.Carries (Scalar.AsksOnly Select.SortsByValues) Select.SortsByValues

section Operators

variable (hf : env.functions.Answers env.catalog fun s => (env.catalog.resolve s).isWhole = false)
  (hkeep : env.functions.Keep env.catalog (Scalar.AsksOnly Select.SortsByValues))
include hf hkeep

/-- Steps keep that all selects inside of a query sort by values. -/
theorem Steps.nestsSorted (h : env.NestsSorted q)
    (hsteps : env.Steps (·.namesNoPosition env.catalog = true) q q') : env.NestsSorted q' :=
  have hnests := nests_sortsByValues hf hkeep
  hsteps.preserve (fun _ _ h hstep => ⟨hnests.step h.sorts hstep, hstep.carries hnests h.sorts h.carries⟩) h

/-- A condition may compare with whole numbers or be one: rows are not ordered by it. -/
theorem nestsSorted_restrict (h : env.NestsSorted q) {s : Scalar} (hs : s.AsksOnly Select.SortsByValues) :
    env.NestsSorted (q.mapDraft (·.restrict s)) :=
  ⟨h.sorts.restrict s, h.carries.restrict (nests_sortsByValues hf hkeep) hs⟩

omit hf in
/-- A scalar that a body becomes asks only about selects that sort by values. -/
theorem asksOnly_lowerIn (h : env.NestsSorted q) {e : Expr} {asValue : Bool} {s : Scalar}
    (hs : (env.scope q).lowerIn e asValue = .ok (some s)) : s.AsksOnly Select.SortsByValues :=
  Closed.lowerIn (env.scope q) ((asksOnly_onReferences _).closed env.catalog) hkeep h.carries.shape hs

/-- To filter keeps that all selects inside of a query sort by values. -/
theorem filterWith_nestsSorted (h : env.NestsSorted q) {f : Option Lambda} (hq : env.filterWith q f = .ok q') :
    env.NestsSorted q' := by
  cases f with
  | none =>
    cases hq
    exact h
  | some f =>
    obtain ⟨s, hs, hq⟩ := bind_eq_ok.1 hq
    cases hq
    have hopened := Steps.nestsSorted hf hkeep h (opened_steps env _ q)
    exact nestsSorted_restrict hf hkeep hopened (asksOnly_lowerIn hkeep hopened (required_eq_ok hs))

/-- Every operator keeps a query ordered by no whole number, as long as its keys and selectors lead to none. -/
theorem apply_nestsSorted {op : Operator} (h : env.NestsSorted q)
    (hbodies : ∀ e ∈ op.valueBodies, e.namesNoPosition env.catalog = true) (hq : env.apply q op = .ok q') :
    env.NestsSorted q' := by
  -- a predicate is no key, so an operator with one is followed as the operator without it
  have hunfiltered : ∀ {f : Option Lambda} {q₁ : ShapedDraft} (op : Operator), op.bodies = [] →
      env.filterWith q f = .ok q₁ → env.apply q₁ op = .ok q' → env.NestsSorted q' := by
    intro f q₁ op hbodies hfilter hq
    have hfiltered := filterWith_nestsSorted hf hkeep h hfilter
    exact Steps.nestsSorted hf hkeep hfiltered (apply_steps hq (by rw [hbodies]; exact List.forall_mem_nil _))
  have hopened := Steps.nestsSorted hf hkeep h (opened_steps env _ q)
  cases op with
  | select _ | orderBy _ _ | thenBy _ _ | sum _ | average _ | min _ | max _ | distinct =>
    exact Steps.nestsSorted hf hkeep h (apply_steps hq hbodies)
  | filter f => exact filterWith_nestsSorted hf hkeep (f := some f) h hq
  | skip rows =>
    obtain ⟨s, hs, hq⟩ := bind_eq_ok.1 hq
    cases hq
    have hcount := asksOnly_lowerIn hkeep hopened (required_eq_ok hs)
    exact ⟨⟨hopened.sorts.shaper, hopened.sorts.shape, hopened.sorts.keys⟩, hopened.carries.skip hcount⟩
  | take rows =>
    obtain ⟨s, hs, hq⟩ := bind_eq_ok.1 hq
    cases hq
    have hpushed := Steps.nestsSorted hf hkeep h (pushDownIf_steps ShapedDraft.isClosed_of_limit)
    have hcount := asksOnly_lowerIn hkeep hpushed (required_eq_ok hs)
    exact ⟨⟨hpushed.sorts.shaper, hpushed.sorts.shape, hpushed.sorts.keys⟩, hpushed.carries.take hcount⟩
  | all f =>
    obtain ⟨s, hs, hq⟩ := bind_eq_ok.1 hq
    cases hq
    have hcondition := asksOnly_lowerIn hkeep hopened (required_eq_ok hs)
    have hexcluded := nestsSorted_restrict hf hkeep hopened
      (((asksOnly_onReferences _).closed env.catalog).not hcondition)
    exact Steps.nestsSorted hf hkeep hexcluded (.single (.existence true))
  | any f =>
    obtain ⟨q₁, hfilter, hq⟩ := bind_eq_ok.1 hq
    exact hunfiltered (.any none) rfl hfilter hq
  | count f =>
    obtain ⟨q₁, hfilter, hq⟩ := bind_eq_ok.1 hq
    exact hunfiltered (.count none) rfl hfilter hq
  | longCount f =>
    obtain ⟨q₁, hfilter, hq⟩ := bind_eq_ok.1 hq
    exact hunfiltered (.longCount none) rfl hfilter hq
  | first f orDefault | single f orDefault =>
    obtain ⟨q₁, hfilter, hq⟩ := bind_eq_ok.1 hq
    exact hunfiltered (.first none orDefault) rfl hfilter hq
  | last f orDefault =>
    obtain ⟨q₁, hfilter, hq⟩ := bind_eq_ok.1 hq
    -- the name of the operator is only part of a refusal
    exact hunfiltered (.last none orDefault) rfl hfilter (by cases orDefault <;> exact hq)
  | _ => cases hq

/-- After any operators whose bodies name no position, all selects inside of a query sort by values. -/
theorem applyAll_nestsSorted {ops : List Operator} (h : env.NestsSorted q)
    (hbodies : ∀ e ∈ ops.flatMap Operator.valueBodies, e.namesNoPosition env.catalog = true)
    (hq : env.applyAll q ops = .ok q') : env.NestsSorted q' := by
  induction ops generalizing q with
  | nil =>
    cases hq
    exact h
  | cons op rest ih =>
    unfold applyAll at hq
    split at hq
    · obtain ⟨q₁, hop, hq⟩ := bind_eq_ok.1 hq
      rw [List.flatMap_cons] at hbodies
      obtain ⟨hfirst, hrest⟩ := List.forall_mem_append.1 hbodies
      exact ih (apply_nestsSorted hf hkeep h hfirst hop) hrest hq
    · cases hq

/-- No key of an accepted pipeline is written as a whole number, in all selects of the statement. -/
theorem sortsByValues_of_lower {query : Query}
    (hbodies : ∀ e ∈ query.valueBodies, e.namesNoPosition env.catalog = true) {shaped : ShapedQuery}
    (h : env.lower query = .ok shaped) : ∀ s : Select, s.Within shaped.select → s.SortsByValues := by
  have hnests := nests_sortsByValues hf hkeep
  obtain ⟨start, hstart, h⟩ := bind_eq_ok.1 h
  obtain ⟨q, hq, h⟩ := bind_eq_ok.1 h
  cases h
  obtain ⟨hsorts, hcarries⟩ := hnests.steps hstart .refl
  have hsorted := applyAll_nestsSorted hf hkeep ⟨hsorts, hcarries⟩ hbodies hq
  intro s hs
  rcases Select.within_iff.1 hs with rfl | hs
  · exact hsorted.sorts.keys
  · exact hsorted.carries.finish hnests s hs

end Operators

end Environment

/-- In pipelines whose keys and selectors lead to no literal that is written as a whole number, no key of a select
at any depth is written as one, so none is the position of a projected column. Conditions and numbers of rows may
be whole numbers. Functions must not become whole numbers, nor bring in selects that are ordered by some. -/
theorem keys_are_no_positions (env : Environment)
    (hf : env.functions.Answers env.catalog fun s => (env.catalog.resolve s).isWhole = false)
    (hkeep : env.functions.Keep env.catalog (Scalar.AsksOnly Select.SortsByValues)) (query : Query)
    (hbodies : ∀ e ∈ query.valueBodies, e.namesNoPosition env.catalog = true) (shaped : ShapedQuery)
    (h : env.lower query = .ok shaped) (s : Select) (hs : s.Within shaped.select) :
    ∀ k ∈ s.orderings, ∀ style pieces, k.expr.render style = .ok pieces →
      isWholeNumeral (letters pieces) = false := by
  intro k hk style pieces hpieces
  have hkey := Environment.sortsByValues_of_lower hf hkeep hbodies h s hs k hk
  cases hwhole : isWholeNumeral (letters pieces) with
  | false => rfl
  | true =>
    rw [Scalar.isWhole_of_render _ hpieces hwhole] at hkey
    cases hkey

/-- The last three persons, ordered by their number also where they are a source of a source. -/
theorem lastNamed_keys_are_no_positions :
    ∃ shaped, (Compiler.new .persons .standard).environment.lower .lastNamed = .ok shaped ∧
      (∀ e ∈ Query.lastNamed.valueBodies,
        e.namesNoPosition (Compiler.new .persons .standard).environment.catalog = true) ∧
      ∃ k ∈ shaped.select.orderings, ∃ pieces, k.expr.render ⟨.generic, .whenNeeded⟩ = .ok pieces ∧
        isWholeNumeral (letters pieces) = false := by
  have hbodies : ∀ e ∈ Query.lastNamed.valueBodies,
      e.namesNoPosition (Compiler.new .persons .standard).environment.catalog = true := by
    decide +kernel
  obtain ⟨shaped, h, hcheck⟩ : ∃ shaped,
      (Compiler.new .persons .standard).environment.lower .lastNamed = .ok shaped ∧
        (shaped.select.orderings.any fun k => (k.expr.render ⟨.generic, .whenNeeded⟩).isOk) = true :=
    exists_of_any (by decide +kernel)
  obtain ⟨k, hk, hrender⟩ := List.any_eq_true.1 hcheck
  obtain ⟨pieces, hpieces⟩ := exists_of_isOk hrender
  exact ⟨shaped, h, hbodies, k, hk, pieces, hpieces,
    keys_are_no_positions _ ((answered_isWhole _).ofDialect _)
      (((asksOnly_onReferences _).closed _).ofDialect_keep _) .lastNamed hbodies shaped h _ .refl k hk _ _ hpieces⟩

/-- Persons ordered by the number one. -/
def Query.orderedByOne : Query := ⟨"Person", [.orderBy ⟨"p", .constant (.integer 1)⟩ false]⟩

/-- A key that is a whole number is written as the position of a column. -/
theorem orderedByOne_is_position :
    ∃ shaped, (Compiler.new .persons .standard).environment.lower .orderedByOne = .ok shaped ∧
      (∃ k ∈ shaped.select.orderings, k.expr.render ⟨.generic, .whenNeeded⟩ = .ok [.text "1"]) ∧
      shaped.select.toCommand ⟨.generic, .whenNeeded⟩ =
        .ok ⟨"SELECT p.id, p.name\nFROM Person AS p\nORDER BY 1", []⟩ := by
  obtain ⟨shaped, h, hcheck⟩ : ∃ shaped,
      (Compiler.new .persons .standard).environment.lower .orderedByOne = .ok shaped ∧
        ((shaped.select.orderings.any fun k =>
            (k.expr.render ⟨.generic, .whenNeeded⟩).toOption.any (· == [.text "1"])) &&
          (shaped.select.toCommand ⟨.generic, .whenNeeded⟩).toOption.any
            (· == ⟨"SELECT p.id, p.name\nFROM Person AS p\nORDER BY 1", []⟩)) = true :=
    exists_of_any (by decide +kernel)
  obtain ⟨hkey, hcommand⟩ := Bool.and_eq_true_iff.1 hcheck
  obtain ⟨k, hk, hkey⟩ := List.any_eq_true.1 hkey
  obtain ⟨pieces, hpieces, htext⟩ := exists_of_any hkey
  obtain ⟨command, hcommand, hsql⟩ := exists_of_any hcommand
  rw [beq_iff_eq] at htext hsql
  exact ⟨shaped, h, ⟨k, hk, htext ▸ hpieces⟩, hsql ▸ hcommand⟩

end QueryPipeline
