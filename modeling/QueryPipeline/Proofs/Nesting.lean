import QueryPipeline.Proofs.Nodes
import QueryPipeline.Proofs.Terminals

/-!
# Selects inside of selects

Selects come to stand inside of others in two ways only: a draft is pushed down and becomes a source of
rows, or an operator at the end of a pipeline asks whether a select has rows. `Nests` says what has to be
known of these two, so that all selects inside of a statement have a property. The selects of a pipeline are
tidy: repetitions are left out only where rows are neither ordered nor left out at the front, and a select
inside of another one is ordered only where the order decides which rows it has.
-/

set_option autoImplicit false

namespace QueryPipeline

open Sql

namespace Sql

/-- A select stands inside of another one, as a source of its rows or in a question that one of its scalars
asks, or within such a select. -/
inductive Select.Inside (s outer : Select) : Prop
  | source {inner : Select} {aliasName : String}
      (hsource : TableSource.subquery inner aliasName ∈ outer.tables) (h : s.Within inner) :
      Select.Inside s outer
  | existence {inner : Select} {whole part : Scalar} {negated : Bool} (hwhole : whole ∈ outer.scalars)
      (hpart : part ∈ whole.parts) (hnode : part.node = .existsIn inner negated) (h : s.Within inner) :
      Select.Inside s outer

/-- A select stands within another one when it is this one or stands inside of it. -/
theorem Select.within_iff {s outer : Select} : s.Within outer ↔ s = outer ∨ s.Inside outer := by
  constructor
  · intro h
    cases h with
    | refl => exact .inl rfl
    | source hsource h => exact .inr (.source hsource h)
    | existence hwhole hpart hnode h => exact .inr (.existence hwhole hpart hnode h)
  · rintro (rfl | h)
    · exact .refl
    · cases h with
      | source hsource h => exact .source hsource h
      | existence hwhole hpart hnode h => exact .existence hwhole hpart hnode h

/-- The selects that a select reads its rows from. -/
def Select.sources (s : Select) : List Select :=
  s.tables.filterMap fun
    | .subquery inner _ => some inner
    | .table .. => none

/-- The selects that a select reads from are the subqueries among its tables. -/
theorem Select.mem_sources {s inner : Select} :
    inner ∈ s.sources ↔ ∃ aliasName, TableSource.subquery inner aliasName ∈ s.tables := by
  constructor
  · intro h
    obtain ⟨source, hsource, heq⟩ := List.mem_filterMap.1 h
    cases source with
    | table _ _ _ => cases heq
    | subquery _ aliasName =>
      cases heq
      exact ⟨aliasName, hsource⟩
  · rintro ⟨aliasName, h⟩
    exact List.mem_filterMap.2 ⟨_, h, rfl⟩

/-- What stands within a source of a select stands inside of this select. -/
theorem Select.Inside.ofSource {s inner outer : Select} (hinner : inner ∈ outer.sources)
    (h : s.Within inner) : s.Inside outer := by
  obtain ⟨aliasName, hsource⟩ := mem_sources.1 hinner
  exact .source hsource h

/-- The scalars of a draft. -/
def Draft.scalars (d : Draft) : List Scalar :=
  d.shape.scalars ++ d.predicate.toList ++ d.orderings.map (·.expr) ++ d.limit.toList ++ d.offset.toList

/-- The scalars of a draft are those of its shape, its predicate, its keys, its limit and its offset. -/
theorem Draft.mem_scalars {d : Draft} {s : Scalar} :
    s ∈ d.scalars ↔ s ∈ d.shape.scalars ∨ s ∈ d.predicate ∨ (∃ k ∈ d.orderings, k.expr = s) ∨
      s ∈ d.limit ∨ s ∈ d.offset := by
  simp [Draft.scalars]

section Projection

variable {d : Draft} {p : Scalar → Prop} (hp : ∀ {s : Scalar} (asValue : Bool), p s → p (s.inContext asValue))
  (h : ∀ s ∈ d.scalars, p s)
include hp h

/-- The columns for rows have the property when the scalars of the draft have it. -/
theorem Draft.rowProjection_keeps : ∀ c ∈ d.rowProjection.columns, p c.expr := by
  intro c hc
  rcases d.rowProjection_grows.origin c hc with hc | ⟨s, hs, he⟩
  · cases hc
  · rw [he]
    exact hp true (h s (mem_scalars.2 (.inl hs)))

/-- The columns of a subquery have the property when the scalars of the draft have it. -/
theorem Draft.subqueryProjection_keeps : ∀ c ∈ d.subqueryProjection.columns, p c.expr := by
  intro c hc
  rcases d.subqueryProjection_grows.origin c hc with hc | ⟨s, hs, he⟩
  · cases hc
  · rw [he]
    refine hp true (h s (mem_scalars.2 ?_))
    rcases List.mem_append.1 hs with hs | hs
    · exact .inl hs
    · exact .inr (.inr (.inl (List.mem_map.1 hs)))

omit hp in
/-- The scalars of a select are those of its draft and what it projects of them. -/
theorem Draft.toSelect_keeps {columns : List OutputColumn} (hcolumns : ∀ c ∈ columns, p c.expr)
    {orderings : List SortKey} (horderings : ∀ k ∈ orderings, k ∈ d.orderings)
    (slots : List (MemberPath × Slot)) : ∀ s ∈ (d.toSelect columns slots orderings).scalars, p s := by
  intro s hs
  simp only [Select.scalars, toSelect, List.mem_append, List.mem_map, Option.mem_toList] at hs
  rcases hs with (((⟨c, hc, rfl⟩ | hs) | ⟨k, hk, rfl⟩) | hs) | hs
  · exact hcolumns c hc
  · exact h _ (mem_scalars.2 (.inr (.inl hs)))
  · exact h _ (mem_scalars.2 (.inr (.inr (.inl ⟨k, horderings k hk, rfl⟩))))
  · exact h _ (mem_scalars.2 (.inr (.inr (.inr (.inl hs)))))
  · exact h _ (mem_scalars.2 (.inr (.inr (.inr (.inr hs)))))

/-- The scalars of the result have the property. -/
theorem Draft.finish_keeps : ∀ s ∈ d.finish.scalars, p s :=
  toSelect_keeps h (rowProjection_keeps hp h) (fun _ => id) _

/-- The scalars of the subquery that a draft becomes have the property. -/
theorem Draft.subquery_keeps : ∀ s ∈ d.subquery.scalars, p s := by
  refine toSelect_keeps h (subqueryProjection_keeps hp h) (fun k hk => ?_) _
  split at hk
  · exact hk
  · cases hk

end Projection

/-- The draft whose rows a question is about: it projects nothing, and is ordered only where it is limited. -/
def Draft.asked (d : Draft) : Draft :=
  if (d.project []).isLimited then d.project [] else (d.project []).unordered

end Sql

namespace Environment

/-- What operators need of a property `p` of scalars and a property `P` of selects, so that all scalars of
drafts have `p` and all selects inside of statements have `P`. The queries before the operators have an
invariant `I`, and their bodies satisfy `A`. -/
structure Nests (env : Environment) (A : Expr → Prop) (I : ShapedDraft → Prop) (p : Scalar → Prop)
    (P : Select → Prop) : Prop where
  start {source : String} {entity : EntityType} (h : env.model.findEntity? source = some entity) :
    I (env.startQuery entity)
  property {source : String} {entity : EntityType} (h : env.model.findEntity? source = some entity) :
    ∀ property ∈ entity.properties, p (env.propertyColumn (tableAlias entity.tableName) property)
  step {q q' : ShapedDraft} (h : I q) (hstep : env.Step A q q') : I q'
  nested {whole part : Scalar} {inner : Select} {negated : Bool} (h : p whole) (hpart : part ∈ whole.parts)
    (hnode : part.node = .existsIn inner negated) : ∀ s : Select, s.Within inner → P s
  inContext {s : Scalar} (asValue : Bool) (h : p s) : p (s.inContext asValue)
  conjunction {left right : Scalar} (hl : p left) (hr : p right) : p (.conjunction left right)
  not {s : Scalar} (h : p s) : p (env.catalog.not s)
  int (i : Int64) : p (env.catalog.int i)
  column {s : Scalar} (h : p s) (name : String) : p (.column subqueryAlias name s.type s.mapping)
  rowTotal {function : String} (hname : function ∈ rowFunctions) (type : DataType) :
    p (env.catalog.function function [.fragment "*" type] type)
  aggregate {compute : Scalar → Except Diagnostic Scalar} {input s : Scalar}
    (hcompute : env.IsAggregate compute) (hinput : p input)
    (h : compute (env.catalog.resolve input) = .ok s) : p s
  existence {inner : Select} (negated : Bool) (h : ∀ s : Select, s.Within inner → P s) :
    p (env.catalog.existsIn inner negated)
  body {q : ShapedDraft} {f : Lambda} {asValue : Bool} {s : Scalar} (h : I q)
    (hd : ∀ s ∈ q.draft.shape.scalars, p s) (hf : A f.body)
    (hs : (env.scope q).lowerIn (f.inline q.shaper) asValue = .ok (some s)) : p s
  selector {q : ShapedDraft} {f : Lambda} {shaper : Expr} {shape : Shape} (h : I q)
    (hd : ∀ s ∈ q.draft.shape.scalars, p s) (hf : A f.body)
    (hbound : (env.scope q).bind (f.inline q.shaper) .root = .ok (shaper, shape)) :
    ∀ s ∈ shape.scalars, p s
  count {q : ShapedDraft} {e : Expr} {asValue : Bool} {s : Scalar} (h : I q)
    (hd : ∀ s ∈ q.draft.shape.scalars, p s) (he : A e)
    (hs : (env.scope q).lowerIn e asValue = .ok (some s)) : p s
  subquery {q : ShapedDraft} (h : I q) (hd : ∀ s ∈ q.draft.scalars, p s) : P q.draft.subquery
  question {q : ShapedDraft} (h : I q) (hd : ∀ s ∈ q.draft.asked.scalars, p s) : P q.draft.asked.finish

end Environment

/-- All scalars of a draft have a property, and so do all selects within those that it reads rows from. -/
structure Sql.Draft.Carries (p : Scalar → Prop) (P : Select → Prop) (d : Draft) : Prop where
  scalars : ∀ s ∈ d.scalars, p s
  sources : ∀ inner aliasName, TableSource.subquery inner aliasName ∈ d.tables →
    ∀ s : Select, s.Within inner → P s

namespace Sql.Draft.Carries

variable {env : Environment} {A : Expr → Prop} {I : ShapedDraft → Prop} {p : Scalar → Prop}
  {P : Select → Prop} {d d' : Draft}

/-- The scalars of the shape are among those of the draft. -/
theorem shape (h : d.Carries p P) : ∀ s ∈ d.shape.scalars, p s := fun s hs =>
  h.scalars s (mem_scalars.2 (.inl hs))

/-- A draft with the same tables and no scalars but those before and others with the property is as good. -/
theorem mono (h : d.Carries p P) (htables : d'.tables = d.tables)
    (hscalars : ∀ s ∈ d'.scalars, s ∈ d.scalars ∨ p s) : d'.Carries p P := by
  refine ⟨fun s hs => ?_, htables ▸ h.sources⟩
  rcases hscalars s hs with hs | hs
  · exact h.scalars s hs
  · exact hs

/-- A projection to scalars with the property keeps it. -/
theorem project (h : d.Carries p P) {shape : Shape} (hshape : ∀ s ∈ shape.scalars, p s) :
    (d.project shape).Carries p P := by
  refine h.mono rfl fun s hs => ?_
  rcases mem_scalars.1 hs with hs | hs
  · exact .inr (hshape s hs)
  · exact .inl (mem_scalars.2 (.inr hs))

/-- Other orderings are as good as those before when their new keys have the property. -/
theorem reorder (h : d.Carries p P) {orderings : List SortKey}
    (horderings : ∀ k ∈ orderings, (∃ k' ∈ d.orderings, k'.expr = k.expr) ∨ p k.expr) :
    { d with orderings }.Carries p P := by
  refine h.mono rfl fun s hs => ?_
  rcases mem_scalars.1 hs with hs | hs | ⟨k, hk, rfl⟩ | hs
  · exact .inl (mem_scalars.2 (.inl hs))
  · exact .inl (mem_scalars.2 (.inr (.inl hs)))
  · rcases horderings k hk with hk | hk
    · exact .inl (mem_scalars.2 (.inr (.inr (.inl hk))))
    · exact .inr hk
  · exact .inl (mem_scalars.2 (.inr (.inr (.inr hs))))

/-- To order by a key with the property keeps it. -/
theorem orderBy (h : d.Carries p P) {k : SortKey} (hk : p k.expr) : (d.orderBy k).Carries p P :=
  h.reorder (List.forall_mem_singleton.2 (.inr hk))

/-- To order by a further key with the property keeps it. -/
theorem thenBy (h : d.Carries p P) {k : SortKey} (hk : p k.expr) : (d.thenBy k).Carries p P := by
  unfold Draft.thenBy
  split
  · exact h
  · exact h.reorder (List.forall_mem_append.2
      ⟨fun k' hk' => .inl ⟨k', hk', rfl⟩, List.forall_mem_singleton.2 (.inr hk)⟩)

/-- To turn all orderings around keeps the property. -/
theorem reverse (h : d.Carries p P) : d.reverse.Carries p P := by
  refine h.reorder fun k hk => .inl ?_
  obtain ⟨k', hk', rfl⟩ := List.mem_map.1 hk
  exact ⟨k', hk', rfl⟩

/-- To drop all orderings keeps the property. -/
theorem unordered (h : d.Carries p P) : d.unordered.Carries p P := h.reorder (List.forall_mem_nil _)

/-- To leave out repetitions keeps the property. -/
theorem makeDistinct (h : d.Carries p P) : d.makeDistinct.Carries p P :=
  (h.reorder (List.forall_mem_nil _)).mono rfl fun _ hs => .inl hs

/-- A limit with the property keeps it. -/
theorem take (h : d.Carries p P) {count : Scalar} (hc : p count) : (d.take count).Carries p P := by
  refine h.mono rfl fun s hs => ?_
  rcases mem_scalars.1 hs with hs | hs | hs | ⟨⟨⟩⟩ | hs
  · exact .inl (mem_scalars.2 (.inl hs))
  · exact .inl (mem_scalars.2 (.inr (.inl hs)))
  · exact .inl (mem_scalars.2 (.inr (.inr (.inl hs))))
  · exact .inr hc
  · exact .inl (mem_scalars.2 (.inr (.inr (.inr (.inr hs)))))

/-- An offset with the property keeps it. -/
theorem skip (h : d.Carries p P) {count : Scalar} (hc : p count) : (d.skip count).Carries p P := by
  refine h.mono rfl fun s hs => ?_
  rcases mem_scalars.1 hs with hs | hs | hs | hs | ⟨⟨⟩⟩
  · exact .inl (mem_scalars.2 (.inl hs))
  · exact .inl (mem_scalars.2 (.inr (.inl hs)))
  · exact .inl (mem_scalars.2 (.inr (.inr (.inl hs))))
  · exact .inl (mem_scalars.2 (.inr (.inr (.inr (.inl hs)))))
  · exact .inr hc

/-- The draft that a question is about has the property when the one before has it. -/
theorem asked (h : d.Carries p P) : d.asked.Carries p P := by
  have hproject : (d.project []).Carries p P := h.project (List.forall_mem_nil _)
  unfold Draft.asked
  split
  · exact hproject
  · exact hproject.unordered

/-- A draft of one scalar has the property when the scalar has it. -/
theorem ofScalar {s : Scalar} (hs : p s) : (Draft.ofScalar s).Carries p P := by
  refine ⟨fun s' hs' => ?_, fun _ _ h => absurd h List.not_mem_nil⟩
  rcases mem_scalars.1 hs' with hs' | ⟨⟨⟩⟩ | ⟨k, hk, -⟩ | ⟨⟨⟩⟩ | ⟨⟨⟩⟩
  · have hsingle : s' ∈ [s] := by simpa [Draft.ofScalar, Shape.scalars, Projected.scalars] using hs'
    rwa [List.mem_singleton.1 hsingle]
  · cases hk

variable (hn : env.Nests A I p P)
include hn

/-- The selects inside of one with such scalars and the sources of a draft have the property. -/
theorem inside (h : d.Carries p P) {outer : Select} (htables : outer.tables = d.tables)
    (hscalars : ∀ s ∈ outer.scalars, p s) : ∀ s : Select, s.Inside outer → P s := by
  intro s hs
  cases hs with
  | source hsource hwithin => exact h.sources _ _ (htables ▸ hsource) s hwithin
  | existence hwhole hpart hnode hwithin => exact hn.nested (hscalars _ hwhole) hpart hnode s hwithin

/-- All selects inside of the result of a draft have the property. -/
theorem finish (h : d.Carries p P) : ∀ s : Select, s.Inside d.finish → P s :=
  h.inside hn rfl (finish_keeps hn.inContext h.scalars)

/-- All selects inside of the subquery that a draft becomes have the property. -/
theorem subquery (h : d.Carries p P) : ∀ s : Select, s.Inside d.subquery → P s :=
  h.inside hn rfl (subquery_keeps hn.inContext h.scalars)

/-- A draft that is pushed down nests itself and what it nested before. -/
theorem pushDown (h : d.Carries p P) (hd : P d.subquery) : d.pushDown.Carries p P := by
  have hcolumn : ∀ {s s' : Scalar}, OuterColumn d.subqueryProjection.columns s s' → p s' := by
    rintro s _ ⟨c, hc, name, -, he, rfl⟩
    have hcolumns := subqueryProjection_keeps hn.inContext h.scalars c hc
    rw [he] at hcolumns
    exact hn.column hcolumns name
  -- all scalars outside are columns of the subquery, and the subquery is the only source
  rw [pushDown_eq]
  constructor
  · intro s' hs'
    rcases mem_scalars.1 hs' with hs' | ⟨⟨⟩⟩ | ⟨k', hk', rfl⟩ | ⟨⟨⟩⟩ | ⟨⟨⟩⟩
    · obtain ⟨s, -, hs⟩ := d.outerShape_related.exists_of_mem_scalars hs'
      exact hcolumn hs
    · obtain ⟨k, -, hk, -⟩ := exists_of_mem_right d.outerOrderings_related hk'
      exact hcolumn hk
  · intro inner aliasName hinner s hs
    cases List.mem_singleton.1 hinner
    rcases Select.within_iff.1 hs with rfl | hs
    · exact hd
    · exact h.subquery hn s hs

/-- A condition with the property keeps it. -/
theorem restrict (h : d.Carries p P) {s : Scalar} (hs : p s) : (d.restrict s).Carries p P := by
  have hcondition : p s.asConditionForm := hn.inContext false hs
  unfold Draft.restrict
  split
  · exact h
  · refine h.mono rfl fun e he => ?_
    rcases mem_scalars.1 he with he | he | he | he | he
    · exact .inl (mem_scalars.2 (.inl he))
    · right
      cases hknown : d.predicate with
      | none =>
        rw [hknown] at he
        cases he
        exact hcondition
      | some known =>
        rw [hknown] at he
        cases he
        exact hn.conjunction (h.scalars known (mem_scalars.2 (.inr (.inl hknown)))) hcondition
    · exact .inl (mem_scalars.2 (.inr (.inr (.inl he))))
    · exact .inl (mem_scalars.2 (.inr (.inr (.inr (.inl he)))))
    · exact .inl (mem_scalars.2 (.inr (.inr (.inr (.inr he)))))

end Sql.Draft.Carries

namespace Environment

variable {env : Environment} {A : Expr → Prop} {I : ShapedDraft → Prop} {p : Scalar → Prop}
  {P : Select → Prop} {q q' : ShapedDraft}

/-- The question whether there are rows has the property when the draft that it is about has it. -/
theorem Nests.existence_carries (hn : env.Nests A I p P) (hq : I q) (h : q.draft.Carries p P)
    (negated : Bool) : (env.existence q negated).draft.Carries p P := by
  refine .ofScalar (hn.inContext true (hn.existence negated fun s hs => ?_))
  rcases Select.within_iff.1 hs with rfl | hs
  · exact hn.question hq h.asked.scalars
  · exact h.asked.finish hn s hs

/-- Every step keeps the properties. -/
theorem Step.carries (hn : env.Nests A I p P) (hq : I q) (h : q.draft.Carries p P)
    (hstep : env.Step A q q') : q'.draft.Carries p P := by
  have hreturning : ∀ {s : Scalar}, p s → (q.returning s).draft.Carries p P := fun hs =>
    h.project (by simpa [Shape.scalars, Projected.scalars] using hs)
  cases hstep with
  | pushDown _ => exact h.pushDown hn (hn.subquery hq h.scalars)
  | restrict _ hbody hs => exact h.restrict hn (hn.body hq h.shape hbody hs)
  | exclude _ hbody hs => exact h.restrict hn (hn.not (hn.body hq h.shape hbody hs))
  | project _ hbody hbound => exact h.project (hn.selector hq h.shape hbody hbound)
  | orderBy _ _ hbody hs => exact h.orderBy (hn.body hq h.shape hbody hs)
  | thenBy _ _ hbody hs => exact h.thenBy (hn.body hq h.shape hbody hs)
  | skip _ hbody hs => exact h.skip (hn.count hq h.shape hbody hs)
  | take _ hbody hs => exact h.take (hn.count hq h.shape hbody hs)
  | takeOne _ => exact h.take (hn.int 1)
  | makeDistinct _ => exact h.makeDistinct
  | reverse _ => exact h.reverse
  | unordered _ => exact h.unordered
  | existence negated => exact hn.existence_carries hq h negated
  | rowTotal hname type _ => exact hreturning (hn.rowTotal hname type)
  | aggregate _ hcompute hs hr =>
    exact hreturning (hn.aggregate hcompute (h.shape _ (Draft.scalar?_mem hs)) hr)
  | ensureNonEmpty _ | expecting _ => exact h

/-- The draft over the table of an entity has the property. -/
theorem Nests.startQuery_carries (hn : env.Nests A I p P) {source : String} {entity : EntityType}
    (h : env.model.findEntity? source = some entity) : (env.startQuery entity).draft.Carries p P := by
  constructor
  · intro s hs
    rcases Draft.mem_scalars.1 hs with hs | ⟨⟨⟩⟩ | ⟨k, hk, -⟩ | ⟨⟨⟩⟩ | ⟨⟨⟩⟩
    · simp only [startQuery, Draft.ofTable, Shape.scalars, Projected.scalars, List.flatMap_cons,
        List.flatMap_nil, List.append_nil, List.map_map, List.mem_map] at hs
      obtain ⟨property, hproperty, rfl⟩ := hs
      exact hn.property h property hproperty
    · cases hk
  · intro inner aliasName hinner
    cases List.mem_singleton.1 hinner

/-- After any steps, a query has the invariant, and its draft has the properties. -/
theorem Nests.steps (hn : env.Nests A I p P) {source : String} {start : ShapedDraft}
    (hstart : env.start source = .ok start) (hsteps : env.Steps A start q) :
    I q ∧ q.draft.Carries p P := by
  obtain ⟨entity, hentity, rfl⟩ := start_eq_ok hstart
  -- the invariant alone would not do: a step that nests a select needs to know what its scalars ask
  exact hsteps.preserve (I := fun q => I q ∧ q.draft.Carries p P)
    (fun _ _ h hstep => ⟨hn.step h.1 hstep, hstep.carries hn h.1 h.2⟩)
    ⟨hn.start hentity, hn.startQuery_carries hentity⟩

/-- After any operators, a query has the invariant, and its draft has the properties. -/
theorem Nests.applyAll (hn : env.Nests A I p P) {source : String} {start : ShapedDraft}
    {ops : List Operator} (hstart : env.start source = .ok start) (hq : env.applyAll start ops = .ok q)
    (hbodies : ∀ e ∈ ops.flatMap Operator.bodies, A e) : I q ∧ q.draft.Carries p P :=
  hn.steps hstart (applyAll_steps hq hbodies)

/-- An accepted pipeline ends in a query with the invariant, whose draft has the properties. -/
theorem Nests.lower (hn : env.Nests A I p P) {query : Query} {shaped : ShapedQuery}
    (h : env.lower query = .ok shaped) (hbodies : ∀ e ∈ query.bodies, A e) :
    ∃ q, I q ∧ q.draft.Carries p P ∧ shaped = q.finish := by
  obtain ⟨q, hq, rfl⟩ := lower_eq_ok.1 h
  obtain ⟨start, hstart, hq⟩ := bind_eq_ok.1 hq
  obtain ⟨hI, hcarries⟩ := hn.applyAll hstart hq hbodies
  exact ⟨q, hI, hcarries, rfl⟩

end Environment

section Questions

variable {P : Select → Prop}

/-- All selects within one that a node asks about have a property. -/
def Sql.Node.AsksOnly (P : Select → Prop) (n : Node) : Prop :=
  ∀ inner negated, n = .existsIn inner negated → ∀ s : Select, s.Within inner → P s

/-- All selects within those that a scalar asks about have a property. -/
abbrev Sql.Scalar.AsksOnly (P : Select → Prop) (s : Scalar) : Prop := s.AllNodes (Node.AsksOnly P)

/-- What a node asks about has to do with nothing but the selects in it. -/
theorem asksOnly_onReferences (P : Select → Prop) : OnReferences (Node.AsksOnly P) where
  free h := by
    rintro inner negated rfl
    cases h
  withMapping _ h inner negated hnode := h inner negated (Node.eq_of_withMapping hnode nofun nofun nofun)

namespace Environment

variable {env : Environment} {A : Expr → Prop} {I : ShapedDraft → Prop}

/-- A property of selects only says something about what scalars ask. So it is enough that the selects that
operators make have it, as long as functions bring in no others. -/
theorem Nests.ofQuestions (hf : env.functions.Keep env.catalog (Scalar.AsksOnly P))
    (start : ∀ {source entity}, env.model.findEntity? source = some entity → I (env.startQuery entity))
    (step : ∀ {q q'}, I q → env.Step A q q' → I q')
    (subquery : ∀ {q}, I q → P q.draft.subquery) (question : ∀ {q}, I q → P q.draft.asked.finish) :
    env.Nests A I (Scalar.AsksOnly P) P where
  start := start
  property _ _ _ := Scalar.all_of_leaf (fun _ _ => nofun) rfl
  step := step
  nested h hpart hnode := h _ hpart _ _ hnode
  inContext _ h := OnReferences.ofNode h rfl
  conjunction hl hr :=
    (asksOnly_onReferences P).ofFree rfl (Scalar.parts_binary (fun _ _ h => h) _ _ _ hl hr)
  not := ((asksOnly_onReferences P).closed env.catalog).not
  int := ((asksOnly_onReferences P).closed env.catalog).int
  column _ _ := Scalar.all_of_leaf (fun _ _ => nofun) rfl
  rowTotal _ type := ((asksOnly_onReferences P).closed env.catalog).ofArgs _ type
    (List.forall_mem_singleton.2 (((asksOnly_onReferences P).closed env.catalog).fragment "*" type))
  aggregate hcompute hinput h := ((asksOnly_onReferences P).closed env.catalog).composed.aggregate hcompute
    (((asksOnly_onReferences P).closed env.catalog).resolve hinput) h
  existence negated h := Scalar.all_of_leaf (by rintro inner negated ⟨⟩; exact h) rfl
  body {q} _ _ _ _ hd _ hs :=
    Closed.lowerIn (env.scope q) ((asksOnly_onReferences P).closed env.catalog) hf hd hs
  selector {q} _ _ _ _ hd _ hbound := (Scope.bind_bound _ _ _ _ hbound).keeps (fun _ => rfl)
    (fun _ _ _ => Closed.lowerIn (env.scope q) ((asksOnly_onReferences P).closed env.catalog) hf hd) hd
    (Expr.callsOnly_true _)
  count {q} _ _ _ _ hd _ hs :=
    Closed.lowerIn (env.scope q) ((asksOnly_onReferences P).closed env.catalog) hf hd hs
  subquery h _ := subquery h
  question h _ := question h

end Environment

end Questions

section Functions

variable {catalog : Catalog} {Q : Scalar → Prop}

/-- A function that the author of a pipeline adds keeps what all scalars keep that are put together. -/
theorem CustomFunction.provider_keeps (hQ : Closed catalog Q) (f : CustomFunction) :
    f.provider.Keeps catalog Q := by
  have hanswer : ∀ {name : QualifiedName} {args : List Scalar} {s : Scalar}, (∀ a ∈ args, Q a) →
      f.answer catalog name args = .ok (some s) → Q s := by
    intro name args s ha h
    unfold CustomFunction.answer at h
    split at h
    · cases h
    · split at h
      · cases h
      · cases h
        exact hQ.ofArgs _ _ ha
  unfold CustomFunction.provider
  split
  · refine ⟨?_, fun hr h => hanswer (fun a ha => hr a (Option.mem_toList.1 ha)) h⟩
    intro _ _ _ _ _ _ h
    cases h
  · refine ⟨fun hr ha h => hanswer (List.forall_mem_append.2
      ⟨fun a hmem => hr a (Option.mem_toList.1 hmem), ha⟩) h, ?_⟩
    intro _ _ _ _ h
    cases h

/-- Functions keep a property also with one more that keeps it. -/
theorem FunctionRegistry.Keep.register {r : FunctionRegistry} (h : r.Keep catalog Q)
    {p : FunctionProvider} (hp : p.Keeps catalog Q) : (r.register p).Keep catalog Q := by
  intro p' hp'
  rcases (List.mem_insertIdx r.registered_le).1 hp' with rfl | hp'
  · exact hp
  · exact h p' hp'

end Functions

section Order

/-- A select without repetitions is ordered by nothing and leaves out no rows at its front. -/
structure Sql.Select.IsTidy (s : Select) : Prop where
  settled : s.distinct = true → s.orderings = []
  unshifted : s.distinct = true → s.offset = none

/-- A select is ordered only where it limits its rows or leaves out some of them. -/
def Sql.Select.OrdersPages (s : Select) : Prop :=
  s.orderings ≠ [] → s.limit.isSome = true ∨ s.offset.isSome = true

namespace Sql.Draft

variable {d : Draft}

/-- A subquery is ordered only where it is limited or leaves out some rows. -/
theorem subquery_ordersPages (d : Draft) : d.subquery.OrdersPages := by
  intro h
  by_cases hlimited : d.isLimited = true
  · exact Bool.or_eq_true_iff.1 hlimited
  · exact absurd (if_neg hlimited) h

/-- The select that a question is about is ordered only where it is limited or leaves out some rows. -/
theorem asked_ordersPages (d : Draft) : d.asked.finish.OrdersPages := by
  intro h
  unfold asked at h ⊢
  split at h
  · rename_i hlimited
    rw [if_pos hlimited]
    exact Bool.or_eq_true_iff.1 hlimited
  · exact absurd rfl h

/-- A draft that is ordered by nothing gets no columns for keys when it is pushed down. -/
theorem subqueryProjection_of_unordered (h : d.orderings = []) : d.subqueryProjection = d.shapeProjection := by
  rw [subqueryProjection, h]
  rfl

end Sql.Draft

namespace Environment

variable {env : Environment} {q : ShapedDraft}

/-- The subquery that a tidy query becomes is tidy. -/
theorem Tidy.subquery (h : Tidy q) : q.draft.subquery.IsTidy := by
  refine ⟨fun hdistinct => ?_, h.unshifted⟩
  show (if q.draft.isLimited then q.draft.orderings else []) = []
  rw [h.settled hdistinct, ite_self]

/-- The select that a question about a tidy query is about is tidy. -/
theorem Tidy.asked (h : Tidy q) : q.draft.asked.finish.IsTidy := by
  unfold Draft.asked
  split
  · exact ⟨h.settled, h.unshifted⟩
  · exact ⟨fun _ => rfl, h.unshifted⟩

/-- Operators keep to tidy selects when the functions do. -/
theorem nests_tidy (hf : env.functions.Keep env.catalog (Scalar.AsksOnly Select.IsTidy)) :
    env.Nests (fun _ => True) Tidy (Scalar.AsksOnly Select.IsTidy) Select.IsTidy :=
  .ofQuestions hf (fun _ => ⟨nofun, nofun⟩) (fun h hstep => hstep.tidy h) (·.subquery) (·.asked)

/-- Operators keep to selects that are ordered for pages only when the functions do. -/
theorem nests_ordersPages (hf : env.functions.Keep env.catalog (Scalar.AsksOnly Select.OrdersPages)) :
    env.Nests (fun _ => True) (fun _ => True) (Scalar.AsksOnly Select.OrdersPages) Select.OrdersPages :=
  .ofQuestions hf (fun _ => trivial) (fun _ _ => trivial) (fun _ => Draft.subquery_ordersPages _)
    fun _ => Draft.asked_ordersPages _

end Environment

/-- Repetitions are left out only where rows are neither ordered nor left out at the front: in all selects of
a statement, at any depth, and in the draft after any operators of any pipeline, which gets no columns for
keys when it is pushed down. Functions must not bring in other selects. -/
theorem distinct_unordered (env : Environment)
    (hf : env.functions.Keep env.catalog (Scalar.AsksOnly Select.IsTidy)) (query : Query) :
    (∀ shaped, env.lower query = .ok shaped → ∀ s : Select, s.Within shaped.select →
      s.distinct = true → s.orderings = [] ∧ s.offset = none) ∧
    ∀ start q ops, env.start query.source = .ok start → env.applyAll start ops = .ok q →
      q.draft.distinct = true → q.draft.orderings = [] ∧ q.draft.offset = none ∧
        q.draft.subqueryProjection = q.draft.shapeProjection := by
  constructor
  · intro shaped h s hs hdistinct
    have hnests := Environment.nests_tidy hf
    obtain ⟨q, htidy, hcarries, rfl⟩ := hnests.lower h fun _ _ => trivial
    rcases Select.within_iff.1 hs with rfl | hs
    · exact ⟨htidy.settled hdistinct, htidy.unshifted hdistinct⟩
    · have hinner := hcarries.finish hnests s hs
      exact ⟨hinner.settled hdistinct, hinner.unshifted hdistinct⟩
  · intro start q ops hstart hq hdistinct
    obtain ⟨htidy, -⟩ := (Environment.nests_tidy hf).applyAll hstart hq fun _ _ => trivial
    have hsettled := htidy.settled hdistinct
    exact ⟨hsettled, htidy.unshifted hdistinct, Draft.subqueryProjection_of_unordered hsettled⟩

/-- A function of two texts that a database has and no dialect has built in. -/
def CustomFunction.soundsLike : CustomFunction :=
  ⟨"string", "sounds_like", "SOUNDS_LIKE", .of .bool, false, none⟩

/-- A compiler for persons with a function added keeps what all scalars keep that are put together. -/
theorem Compiler.soundsLike_keep {Q : Scalar → Prop}
    (hQ : Closed (Compiler.new .persons .standard).environment.catalog Q) :
    ((Compiler.new .persons .standard).withFunction
      CustomFunction.soundsLike.provider).environment.functions.Keep
        (Compiler.new .persons .standard).environment.catalog Q :=
  (hQ.ofDialect_keep _).register (CustomFunction.provider_keeps hQ _)

/-- Among the last three persons, the named ones, each once, are a source without any order. -/
theorem lastNamed_distinct_unordered :
    ∃ shaped, ((Compiler.new .persons .standard).withFunction
        CustomFunction.soundsLike.provider).environment.lower .lastNamed = .ok shaped ∧
      ∃ inner ∈ shaped.select.sources, inner.distinct = true ∧ inner.orderings = [] ∧
        inner.offset = none := by
  obtain ⟨shaped, h, hcheck⟩ : ∃ shaped, ((Compiler.new .persons .standard).withFunction
      CustomFunction.soundsLike.provider).environment.lower .lastNamed = .ok shaped ∧
        (shaped.select.sources.any fun inner => inner.distinct) = true := exists_of_any (by decide +kernel)
  obtain ⟨inner, hinner, hdistinct⟩ := List.any_eq_true.1 hcheck
  have hwithin : inner.Within shaped.select := Select.within_iff.2 (.inr (.ofSource hinner .refl))
  have hf := Compiler.soundsLike_keep ((asksOnly_onReferences Select.IsTidy).closed _)
  exact ⟨shaped, h, inner, hinner, hdistinct,
    (distinct_unordered _ hf .lastNamed).1 shaped h inner hwithin hdistinct⟩

/-- A select inside of another one, at any depth, is ordered only where it limits its rows or leaves out some
at the front. Functions must not bring in other selects. -/
theorem nested_ordered_only_paged (env : Environment)
    (hf : env.functions.Keep env.catalog (Scalar.AsksOnly Select.OrdersPages)) (query : Query)
    (shaped : ShapedQuery) (h : env.lower query = .ok shaped) (s : Select) (hs : s.Inside shaped.select)
    (hordered : s.orderings ≠ []) : s.limit.isSome = true ∨ s.offset.isSome = true := by
  have hnests := Environment.nests_ordersPages hf
  obtain ⟨q, -, hcarries, rfl⟩ := hnests.lower h fun _ _ => trivial
  exact hcarries.finish hnests s hs hordered

/-- The last three persons are ordered where they are a source of a source, and limited there. -/
theorem lastNamed_ordered_only_paged :
    ∃ shaped, ((Compiler.new .persons .standard).withFunction
        CustomFunction.soundsLike.provider).environment.lower .lastNamed = .ok shaped ∧
      ∃ named ∈ shaped.select.sources, ∃ last ∈ named.sources, last.orderings ≠ [] ∧
        (last.limit.isSome = true ∨ last.offset.isSome = true) := by
  obtain ⟨shaped, h, hcheck⟩ : ∃ shaped, ((Compiler.new .persons .standard).withFunction
      CustomFunction.soundsLike.provider).environment.lower .lastNamed = .ok shaped ∧
        (shaped.select.sources.any fun named => named.sources.any fun last =>
          !last.orderings.isEmpty) = true := exists_of_any (by decide +kernel)
  obtain ⟨named, hnamed, hcheck⟩ := List.any_eq_true.1 hcheck
  obtain ⟨last, hlast, hcheck⟩ := List.any_eq_true.1 hcheck
  have hordered : last.orderings ≠ [] := by simpa using hcheck
  have hwithin : last.Within named := Select.within_iff.2 (.inr (.ofSource hlast .refl))
  have hf := Compiler.soundsLike_keep ((asksOnly_onReferences Select.OrdersPages).closed _)
  exact ⟨shaped, h, named, hnamed, last, hlast, hordered,
    nested_ordered_only_paged _ hf .lastNamed shaped h last (.ofSource hnamed hwithin) hordered⟩

end Order

end QueryPipeline
