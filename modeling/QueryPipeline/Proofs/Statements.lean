import QueryPipeline.Proofs.Closed
import QueryPipeline.Proofs.Parts

/-!
# Properties of all scalars of a statement

`Select.AllHold g` says that `g` holds of all scalars of a statement over the sources next to them, at any
depth; limits and offsets have to satisfy it over no source at all. It also says that the predicates of these
selects stand where a condition is expected and their other scalars where a value is. While a draft is under
construction, its scalars satisfy a stronger `p`, which also looks into the selects that a scalar asks about.
`Kept` collects what has to be known of such a property, `BodiesKept` what has to be known of bodies, and
`Kept.step` concludes that every step of an operator keeps the property.
-/

set_option autoImplicit false

namespace QueryPipeline

open Sql

namespace Sql

/-- All columns of a projection have names, and no two have the same. -/
def NamesColumns (columns : List OutputColumn) : Prop :=
  (∀ c ∈ columns, c.aliasName.isSome) ∧ (columns.filterMap (·.aliasName)).Nodup

/-- The scalars of a select that stand where a value is expected. -/
def Select.values (s : Select) : List Scalar :=
  s.projection.map (·.expr) ++ s.orderings.map (·.expr) ++ s.limit.toList ++ s.offset.toList

/-- The predicate of a select stands where a condition is expected, and all else where a value is. -/
structure Select.InContext (s : Select) : Prop where
  predicate : ∀ e ∈ s.predicate, e.asValue = false
  values : ∀ v ∈ s.values, v.asValue = true

/-- The predicate of a draft stands where a condition is expected, and all else where a value is. -/
structure Draft.InContext (d : Draft) : Prop where
  shape : ∀ s ∈ d.shape.scalars, s.asValue = true
  predicate : ∀ s ∈ d.predicate, s.asValue = false
  orderings : ∀ k ∈ d.orderings, k.expr.asValue = true
  limit : ∀ s ∈ d.limit, s.asValue = true
  offset : ∀ s ∈ d.offset, s.asValue = true

/-- The scalars of a select satisfy `g` over its sources, limit and offset over no source, all of them stand
where they belong, and the columns of its subqueries can be told apart by their names. -/
structure Select.Holds (g : List TableSource → Scalar → Prop) (s : Select) : Prop where
  projection : ∀ c ∈ s.projection, g s.tables c.expr
  predicate : ∀ e ∈ s.predicate, g s.tables e
  orderings : ∀ k ∈ s.orderings, g s.tables k.expr
  limit : ∀ count ∈ s.limit, g [] count
  offset : ∀ count ∈ s.offset, g [] count
  context : s.InContext
  named : ∀ inner aliasName, TableSource.subquery inner aliasName ∈ s.tables →
    NamesColumns inner.projection

/-- The scalars of a select and of all selects within it satisfy `g`. -/
def Select.AllHold (g : List TableSource → Scalar → Prop) (s : Select) : Prop :=
  ∀ inner : Select, inner.Within s → inner.Holds g

/-- The scalars of a draft satisfy `p` and stand where they belong, and the subqueries that it reads satisfy
`g`. -/
structure Draft.Holds (g p : List TableSource → Scalar → Prop) (d : Draft) : Prop where
  shape : ∀ s ∈ d.shape.scalars, p d.tables s
  predicate : ∀ s ∈ d.predicate, p d.tables s
  orderings : ∀ k ∈ d.orderings, p d.tables k.expr
  limit : ∀ s ∈ d.limit, p [] s
  offset : ∀ s ∈ d.offset, p [] s
  context : d.InContext
  sources : ∀ inner aliasName, TableSource.subquery inner aliasName ∈ d.tables →
    inner.AllHold g ∧ NamesColumns inner.projection

end Sql

/-- What operators need of a property `p` to keep it, so that `g` holds of statements. While a body becomes
a scalar, its parts only satisfy `r`; a scalar satisfies `p` when it is resolved, and when an operator makes
it. -/
structure Kept (env : Environment) (g p r : List TableSource → Scalar → Prop) : Prop where
  sound {tables : List TableSource} {s : Scalar} (h : p tables s) : g tables s
  nested {tables : List TableSource} {whole part : Scalar} {inner : Select} {negated : Bool}
    (h : p tables whole) (hpart : part ∈ whole.parts) (hnode : part.node = .existsIn inner negated) :
    inner.AllHold g
  weaken {tables : List TableSource} {s : Scalar} (h : p tables s) (hvalue : s.asValue = true) :
    r tables s
  resolve {tables : List TableSource} {s : Scalar} (h : r tables s) : p tables (env.catalog.resolve s)
  inContext {tables : List TableSource} {s : Scalar} (asValue : Bool) (h : p tables s) :
    p tables (s.inContext asValue)
  conjunction {tables : List TableSource} {left right : Scalar} (hl : p tables left)
    (hr : p tables right) : p tables (.conjunction left right)
  not {tables : List TableSource} {s : Scalar} (h : p tables s) : p tables (env.catalog.not s)
  fragment (tables : List TableSource) (sql : String) (type : DataType) :
    r tables (.fragment sql type)
  function {tables : List TableSource} {name : String} (hname : name ∈ Environment.rowFunctions)
    {args : List Scalar} (type : DataType) (h : ∀ a ∈ args, r tables a) :
    p tables (env.catalog.function name args type)
  castTo {tables : List TableSource} {s : Scalar} (type : DataType) (m : TypeMapping)
    (h : r tables s) : p tables ((env.catalog.resolve s).castTo type m)
  int (tables : List TableSource) (i : Int64) : p tables (env.catalog.int i)
  column {d : Draft} {s s' : Scalar} (h : OuterColumn d.subqueryProjection.columns s s') :
    p [.subquery d.subquery subqueryAlias] s'
  existence {inner : Select} (negated : Bool) (h : inner.AllHold g) :
    p [] (env.catalog.existsIn inner negated)

/-- What operators need of bodies: a body with allowed names has `r` when the scalars of the draft have it,
and a body of a pipeline, which has `A`, has `r` over no source. -/
structure BodiesKept (env : Environment) (A : Expr → Prop) (allowed : QualifiedName → Bool)
    (r : List TableSource → Scalar → Prop) : Prop where
  names {e : Expr} (h : A e) : e.callsOnly allowed = true
  lowered {tables : List TableSource} {d : Draft} (hd : ∀ s ∈ d.shape.scalars, r tables s) {e : Expr}
    (he : e.callsOnly allowed = true) {s : Scalar}
    (h : Lowered ⟨env.catalog, env.functions, d⟩ e s) : r tables s
  count {tables : List TableSource} {d : Draft} (hd : ∀ s ∈ d.shape.scalars, r tables s) {e : Expr}
    (he : A e) {s : Scalar} (h : Lowered ⟨env.catalog, env.functions, d⟩ e s) : r [] s

/-- The functions of an environment keep every closed property. -/
def Environment.FunctionsKeep (env : Environment) : Prop :=
  ∀ P, Closed env.catalog P → env.functions.Keep env.catalog P

/-- A closed property needs nothing of bodies but that they contain no forms of the compiler. -/
theorem BodiesKept.ofClosed {env : Environment} {A : Expr → Prop}
    {r : List TableSource → Scalar → Prop} (hr : ∀ tables, Closed env.catalog (r tables))
    (hf : env.FunctionsKeep) (hA : ∀ e, A e → e.isSource = true) :
    BodiesKept env A (fun _ => true) r where
  names _ := Expr.callsOnly_true _
  lowered {tables d} hd _ _ _ h :=
    @Lowered.keeps ⟨env.catalog, env.functions, d⟩ _ (hr tables) (hf _ (hr tables)) hd _ _ h
  count {_ d} _ _ he _ h :=
    @Lowered.keeps_of_source ⟨env.catalog, env.functions, d⟩ _ (hr []) (hf _ (hr [])) _ (hA _ he) _ h

/-- A closed property that is weaker over no source than over any needs nothing of bodies at all. -/
theorem BodiesKept.ofWeaker {env : Environment} {A : Expr → Prop}
    {r : List TableSource → Scalar → Prop} (hr : ∀ tables, Closed env.catalog (r tables))
    (hf : env.FunctionsKeep) (hweaker : ∀ tables s, r tables s → r [] s) :
    BodiesKept env A (fun _ => true) r where
  names _ := Expr.callsOnly_true _
  lowered {tables d} hd _ _ _ h :=
    @Lowered.keeps ⟨env.catalog, env.functions, d⟩ _ (hr tables) (hf _ (hr tables)) hd _ _ h
  count {tables d} hd _ _ _ h :=
    @Lowered.keeps ⟨env.catalog, env.functions, d⟩ _ (hr []) (hf _ (hr []))
      (fun s hs => hweaker tables s (hd s hs)) _ _ h

namespace Sql.Draft.InContext

variable {d : Draft}

/-- A draft that keeps all rows only has to project values and to be ordered by them. -/
theorem ofAllRows (hpredicate : d.predicate = none) (hlimit : d.limit = none)
    (hoffset : d.offset = none) (hshape : ∀ s ∈ d.shape.scalars, s.asValue = true)
    (horderings : ∀ k ∈ d.orderings, k.expr.asValue = true) : d.InContext := by
  refine ⟨hshape, ?_, horderings, ?_, ?_⟩
  · rw [hpredicate]
    rintro _ ⟨⟩
  · rw [hlimit]
    rintro _ ⟨⟩
  · rw [hoffset]
    rintro _ ⟨⟩

/-- A select of a draft has its scalars where they belong when the new columns and orderings are values. -/
theorem toSelect (h : d.InContext) {columns : List OutputColumn}
    (hcolumns : ∀ c ∈ columns, c.expr.asValue = true) {orderings : List SortKey}
    (horderings : ∀ k ∈ orderings, k.expr.asValue = true) (slots : List (MemberPath × Slot)) :
    (d.toSelect columns slots orderings).InContext := by
  refine ⟨h.predicate, fun v hv => ?_⟩
  simp only [Select.values, Draft.toSelect, List.mem_append, List.mem_map, Option.mem_toList] at hv
  rcases hv with ((⟨c, hc, rfl⟩ | ⟨k, hk, rfl⟩) | hv) | hv
  · exact hcolumns c hc
  · exact horderings k hk
  · exact h.limit v hv
  · exact h.offset v hv

/-- A predicate is joined by a condition. -/
theorem restrict (h : d.InContext) (s : Scalar) : (d.restrict s).InContext := by
  unfold Draft.restrict
  split
  · exact h
  · refine ⟨h.shape, ?_, h.orderings, h.limit, h.offset⟩
    rintro _ ⟨⟩
    split <;> rfl

/-- To order by a value keeps all scalars where they belong. -/
theorem orderBy (h : d.InContext) {k : SortKey} (hk : k.expr.asValue = true) : (d.orderBy k).InContext :=
  ⟨h.shape, h.predicate, List.forall_mem_singleton.2 hk, h.limit, h.offset⟩

/-- To order by a further value keeps all scalars where they belong. -/
theorem thenBy (h : d.InContext) {k : SortKey} (hk : k.expr.asValue = true) :
    (d.thenBy k).InContext := by
  unfold Draft.thenBy
  split
  · exact h
  · exact ⟨h.shape, h.predicate,
      List.forall_mem_append.2 ⟨h.orderings, List.forall_mem_singleton.2 hk⟩, h.limit, h.offset⟩

/-- To drop all orderings keeps all scalars where they belong. -/
theorem unordered (h : d.InContext) : d.unordered.InContext :=
  ⟨h.shape, h.predicate, List.forall_mem_nil _, h.limit, h.offset⟩

/-- To leave out repetitions keeps all scalars where they belong. -/
theorem makeDistinct (h : d.InContext) : d.makeDistinct.InContext :=
  ⟨h.shape, h.predicate, List.forall_mem_nil _, h.limit, h.offset⟩

/-- To turn all orderings around keeps all scalars where they belong. -/
theorem reverse (h : d.InContext) : d.reverse.InContext := by
  refine ⟨h.shape, h.predicate, ?_, h.limit, h.offset⟩
  intro k hk
  obtain ⟨k', hk', rfl⟩ := List.mem_map.1 hk
  exact h.orderings k' hk'

/-- A projection to values keeps all scalars where they belong. -/
theorem project (h : d.InContext) {shape : Shape} (hshape : ∀ s ∈ shape.scalars, s.asValue = true) :
    (d.project shape).InContext :=
  ⟨hshape, h.predicate, h.orderings, h.limit, h.offset⟩

/-- A limit that is a value keeps all scalars where they belong. -/
theorem take (h : d.InContext) {count : Scalar} (hc : count.asValue = true) :
    (d.take count).InContext := by
  refine ⟨h.shape, h.predicate, h.orderings, ?_, h.offset⟩
  rintro _ ⟨⟩
  exact hc

/-- An offset that is a value keeps all scalars where they belong. -/
theorem skip (h : d.InContext) {count : Scalar} (hc : count.asValue = true) :
    (d.skip count).InContext := by
  refine ⟨h.shape, h.predicate, h.orderings, h.limit, ?_⟩
  rintro _ ⟨⟩
  exact hc

end Sql.Draft.InContext

namespace Sql.Draft.Holds

variable {env : Environment} {g p r : List TableSource → Scalar → Prop} (hp : Kept env g p r) {d : Draft}

/-- A draft that keeps all rows has the property when its shape, its orderings and its sources have it. -/
theorem ofAllRows (hpredicate : d.predicate = none) (hlimit : d.limit = none)
    (hoffset : d.offset = none) (hshape : ∀ s ∈ d.shape.scalars, p d.tables s ∧ s.asValue = true)
    (horderings : ∀ k ∈ d.orderings, p d.tables k.expr ∧ k.expr.asValue = true)
    (hsources : ∀ inner aliasName, TableSource.subquery inner aliasName ∈ d.tables →
      inner.AllHold g ∧ NamesColumns inner.projection) : d.Holds g p := by
  refine ⟨fun s hs => (hshape s hs).1, ?_, fun k hk => (horderings k hk).1, ?_, ?_,
    .ofAllRows hpredicate hlimit hoffset (fun s hs => (hshape s hs).2) fun k hk => (horderings k hk).2,
    hsources⟩
  · rw [hpredicate]
    rintro _ ⟨⟩
  · rw [hlimit]
    rintro _ ⟨⟩
  · rw [hoffset]
    rintro _ ⟨⟩

include hp

/-- A draft becomes a statement with the property, as long as it projects values with it and is ordered by
keys with it. -/
theorem toSelect (h : d.Holds g p) {columns : List OutputColumn}
    (hcolumns : ∀ c ∈ columns, p d.tables c.expr ∧ c.expr.asValue = true) {orderings : List SortKey}
    (horderings : ∀ k ∈ orderings, p d.tables k.expr ∧ k.expr.asValue = true)
    (slots : List (MemberPath × Slot)) : (d.toSelect columns slots orderings).AllHold g := by
  intro inner hwithin
  cases hwithin with
  | refl =>
    exact ⟨fun c hc => hp.sound (hcolumns c hc).1, fun s hs => hp.sound (h.predicate s hs),
      fun k hk => hp.sound (horderings k hk).1, fun s hs => hp.sound (h.limit s hs),
      fun s hs => hp.sound (h.offset s hs),
      h.context.toSelect (fun c hc => (hcolumns c hc).2) (fun k hk => (horderings k hk).2) slots,
      fun i a hi => (h.sources i a hi).2⟩
  | source hsource hwithin => exact (h.sources _ _ hsource).1 inner hwithin
  | @existence _ _ whole _ _ hwhole hpart hnode hwithin =>
    -- limits and offsets satisfy the property over no source, everything else over the sources
    have hholds : ∃ tables, p tables whole := by
      simp only [Select.scalars, Draft.toSelect, List.mem_append, List.mem_map,
        Option.mem_toList] at hwhole
      rcases hwhole with (((⟨c, hc, rfl⟩ | hs) | ⟨k, hk, rfl⟩) | hs) | hs
      · exact ⟨_, (hcolumns c hc).1⟩
      · exact ⟨_, h.predicate _ hs⟩
      · exact ⟨_, (horderings k hk).1⟩
      · exact ⟨_, h.limit _ hs⟩
      · exact ⟨_, h.offset _ hs⟩
    obtain ⟨tables, hholds⟩ := hholds
    exact hp.nested hholds hpart hnode inner hwithin

omit hp in
/-- The keys of a draft have the property and are values. -/
theorem keys (h : d.Holds g p) : ∀ k ∈ d.orderings, p d.tables k.expr ∧ k.expr.asValue = true :=
  fun k hk => ⟨h.orderings k hk, h.context.orderings k hk⟩

/-- All scalars of the result have the property. -/
theorem finish (h : d.Holds g p) : d.finish.AllHold g := by
  rw [finish_eq]
  refine h.toSelect hp (fun c hc => ?_) h.keys _
  rcases d.rowProjection_grows.origin c hc with hc | ⟨s, hs, he⟩
  · cases hc
  · rw [he]
    exact ⟨hp.inContext _ (h.shape s hs), rfl⟩

/-- All scalars of the subquery that a draft becomes have the property. -/
theorem subquery (h : d.Holds g p) : d.subquery.AllHold g := by
  refine h.toSelect hp (fun c hc => ?_) ?_ _
  · rcases d.subqueryProjection_grows.origin c hc with hc | ⟨s, hs, he⟩
    · cases hc
    · rw [he]
      refine ⟨hp.inContext _ ?_, rfl⟩
      rcases List.mem_append.1 hs with hs | hs
      · exact h.shape s hs
      · obtain ⟨k, hk, rfl⟩ := List.mem_map.1 hs
        exact h.orderings k hk
  · split
    · exact h.keys
    · exact List.forall_mem_nil _

/-- To push a draft down keeps the property. -/
theorem pushDown (h : d.Holds g p) : d.pushDown.Holds g p := by
  have hcolumn : ∀ {s s' : Scalar}, OuterColumn d.subqueryProjection.columns s s' →
      s'.asValue = true := by
    rintro _ _ ⟨_, _, _, _, _, rfl⟩
    rfl
  rw [pushDown_eq]
  refine ofAllRows rfl rfl rfl ?_ ?_ ?_
  · intro s' hs'
    obtain ⟨s, -, hs⟩ := d.outerShape_related.exists_of_mem_scalars hs'
    exact ⟨hp.column hs, hcolumn hs⟩
  · intro k' hk'
    obtain ⟨k, -, hk, -⟩ := exists_of_mem_right d.outerOrderings_related hk'
    exact ⟨hp.column hk, hcolumn hk⟩
  · intro inner aliasName hinner
    cases List.mem_singleton.1 hinner
    exact ⟨h.subquery hp, d.subqueryProjection_wellNamed⟩

/-- A condition with the property keeps it. -/
theorem restrict (h : d.Holds g p) {s : Scalar} (hs : p d.tables s) : (d.restrict s).Holds g p := by
  have hcontext := h.context.restrict s
  unfold Draft.restrict at hcontext ⊢
  split
  · exact h
  · rename_i hconstant
    rw [if_neg hconstant] at hcontext
    refine ⟨h.shape, ?_, h.orderings, h.limit, h.offset, hcontext, h.sources⟩
    have hcondition := hp.inContext false hs
    intro e he
    cases hknown : d.predicate with
    | none =>
      rw [hknown] at he
      cases he
      exact hcondition
    | some known =>
      rw [hknown] at he
      cases he
      exact hp.conjunction (h.predicate known hknown) hcondition

omit hp

/-- To order by a value with the property keeps it. -/
theorem orderBy (h : d.Holds g p) {k : SortKey} (hk : p d.tables k.expr)
    (hvalue : k.expr.asValue = true) : (d.orderBy k).Holds g p :=
  ⟨h.shape, h.predicate, List.forall_mem_singleton.2 hk, h.limit, h.offset, h.context.orderBy hvalue,
    h.sources⟩

/-- To order by a further value with the property keeps it. -/
theorem thenBy (h : d.Holds g p) {k : SortKey} (hk : p d.tables k.expr)
    (hvalue : k.expr.asValue = true) : (d.thenBy k).Holds g p := by
  have hcontext := h.context.thenBy hvalue
  unfold Draft.thenBy at hcontext ⊢
  split
  · exact h
  · rename_i hordered
    rw [if_neg hordered] at hcontext
    exact ⟨h.shape, h.predicate,
      List.forall_mem_append.2 ⟨h.orderings, List.forall_mem_singleton.2 hk⟩, h.limit, h.offset,
      hcontext, h.sources⟩

/-- To drop all orderings keeps the property. -/
theorem unordered (h : d.Holds g p) : d.unordered.Holds g p :=
  ⟨h.shape, h.predicate, List.forall_mem_nil _, h.limit, h.offset, h.context.unordered, h.sources⟩

/-- To leave out repetitions keeps the property. -/
theorem makeDistinct (h : d.Holds g p) : d.makeDistinct.Holds g p :=
  ⟨h.shape, h.predicate, List.forall_mem_nil _, h.limit, h.offset, h.context.makeDistinct, h.sources⟩

/-- To turn all orderings around keeps the property. -/
theorem reverse (h : d.Holds g p) : d.reverse.Holds g p := by
  refine ⟨h.shape, h.predicate, ?_, h.limit, h.offset, h.context.reverse, h.sources⟩
  intro k hk
  obtain ⟨k', hk', rfl⟩ := List.mem_map.1 hk
  exact h.orderings k' hk'

/-- A projection to values with the property keeps it. -/
theorem project (h : d.Holds g p) {shape : Shape}
    (hshape : ∀ s ∈ shape.scalars, p d.tables s ∧ s.asValue = true) : (d.project shape).Holds g p :=
  ⟨fun s hs => (hshape s hs).1, h.predicate, h.orderings, h.limit, h.offset,
    h.context.project fun s hs => (hshape s hs).2, h.sources⟩

/-- A limit with the property over no source keeps it. -/
theorem take (h : d.Holds g p) {count : Scalar} (hc : p [] count) (hvalue : count.asValue = true) :
    (d.take count).Holds g p := by
  refine ⟨h.shape, h.predicate, h.orderings, ?_, h.offset, h.context.take hvalue, h.sources⟩
  rintro _ ⟨⟩
  exact hc

/-- An offset with the property over no source keeps it. -/
theorem skip (h : d.Holds g p) {count : Scalar} (hc : p [] count) (hvalue : count.asValue = true) :
    (d.skip count).Holds g p := by
  refine ⟨h.shape, h.predicate, h.orderings, h.limit, ?_, h.context.skip hvalue, h.sources⟩
  rintro _ ⟨⟩
  exact hc

end Sql.Draft.Holds

/-- A draft of the rows of an entity has the property when the columns of the entity have it. -/
theorem Environment.startQuery_holds {env : Environment} {entity : EntityType}
    {g p : List TableSource → Scalar → Prop}
    (h : ∀ property ∈ entity.properties, p (env.startQuery entity).draft.tables
      (env.propertyColumn (tableAlias entity.tableName) property)) :
    (env.startQuery entity).draft.Holds g p := by
  refine .ofAllRows rfl rfl rfl ?_ (List.forall_mem_nil _) ?_
  · intro s hs
    simp only [startQuery, Draft.ofTable, Shape.scalars, Projected.scalars, List.flatMap_cons,
      List.flatMap_nil, List.append_nil, List.map_map, List.mem_map] at hs
    obtain ⟨property, hproperty, rfl⟩ := hs
    exact ⟨h property hproperty, rfl⟩
  · intro inner aliasName hinner
    cases List.mem_singleton.1 hinner

namespace Kept

variable {env : Environment} {A : Expr → Prop} {allowed : QualifiedName → Bool}
  {g p r : List TableSource → Scalar → Prop} {q q' : ShapedDraft}

/-- The scalars of a draft with the property may be put together to others. -/
theorem parts (hp : Kept env g p r) (h : q.draft.Holds g p) :
    ∀ s ∈ q.draft.shape.scalars, r q.draft.tables s :=
  fun s hs => hp.weaken (h.shape s hs) (h.context.shape s hs)

/-- A body over a draft with the property has it, in the context in which it is asked for. -/
theorem lowerIn (hp : Kept env g p r) (hb : BodiesKept env A allowed r) (h : q.draft.Holds g p)
    {e : Expr} (he : e.callsOnly allowed = true) {asValue : Bool} {s : Scalar}
    (hs : (env.scope q).lowerIn e asValue = .ok (some s)) :
    p q.draft.tables s ∧ s.asValue = asValue := by
  obtain ⟨s', hs', rfl⟩ := Scope.lowerIn_eq_some hs
  exact ⟨hp.inContext _ (hp.resolve (hb.lowered (hp.parts h) he hs')), rfl⟩

/-- A number of rows has the property over no source. -/
theorem lowerIn_count (hp : Kept env g p r) (hb : BodiesKept env A allowed r) (h : q.draft.Holds g p)
    {e : Expr} (he : A e) {asValue : Bool} {s : Scalar}
    (hs : (env.scope q).lowerIn e asValue = .ok (some s)) : p [] s ∧ s.asValue = asValue := by
  obtain ⟨s', hs', rfl⟩ := Scope.lowerIn_eq_some hs
  exact ⟨hp.inContext _ (hp.resolve (hb.count (hp.parts h) he hs')), rfl⟩

/-- A value computed from a scalar with the property has it. -/
theorem aggregate (hp : Kept env g p r) {compute : Scalar → Except Diagnostic Scalar}
    (hcompute : env.IsAggregate compute) {tables : List TableSource} {input s : Scalar}
    (hinput : p tables input) (hvalue : input.asValue = true) (h : compute input = .ok s) :
    p tables s ∧ s.asValue = true := by
  obtain ⟨name, hname, a, type, ha, hs⟩ := hcompute.form h
  have ha : p tables a ∧ a.asValue = true := by
    rcases ha with rfl | ⟨type, m, -, rfl⟩
    · exact ⟨hinput, hvalue⟩
    · exact ⟨hp.castTo type m (hp.weaken hinput hvalue), rfl⟩
  have hfunction : p tables (env.catalog.function name [a] type) :=
    hp.function hname _ (List.forall_mem_singleton.2 (hp.weaken ha.1 ha.2))
  rcases hs with rfl | ⟨type, m, -, rfl⟩
  · exact ⟨hfunction, rfl⟩
  · exact ⟨hp.castTo type m (hp.weaken hfunction rfl), rfl⟩

/-- The question whether there are rows has the property. -/
theorem existence_holds (hp : Kept env g p r) (h : q.draft.Holds g p) (negated : Bool) :
    (env.existence q negated).draft.Holds g p := by
  have hproject : (q.draft.project []).Holds g p := h.project (List.forall_mem_nil _)
  refine .ofAllRows rfl rfl rfl ?_ (List.forall_mem_nil _) fun _ _ h => absurd h List.not_mem_nil
  simp only [Environment.existence, Draft.ofScalar, Shape.scalars, Projected.scalars,
    List.flatMap_cons, List.flatMap_nil, List.append_nil, List.forall_mem_singleton]
  split
  · exact ⟨hp.inContext _ (hp.existence _ (hproject.finish hp)), rfl⟩
  · exact ⟨hp.inContext _ (hp.existence _ (hproject.unordered.finish hp)), rfl⟩

/-- Every step keeps the property, and a shaper that calls nothing but what is allowed. -/
theorem step (hp : Kept env g p r) (hb : BodiesKept env A allowed r)
    (h : q.draft.Holds g p ∧ q.shaper.callsOnly allowed = true) (hstep : env.Step A q q') :
    q'.draft.Holds g p ∧ q'.shaper.callsOnly allowed = true := by
  obtain ⟨h, hshaper⟩ := h
  have hinline : ∀ {f : Lambda}, A f.body → (f.inline q.shaper).callsOnly allowed = true :=
    fun hbody => Expr.callsOnly_inline (hb.names hbody) hshaper
  have hreturning : ∀ s : Scalar, p q.draft.tables s ∧ s.asValue = true →
      (q.returning s).draft.Holds g p ∧ (q.returning s).shaper.callsOnly allowed = true := by
    intro s hs
    exact ⟨h.project (by simpa [Shape.scalars, Projected.scalars] using hs), rfl⟩
  cases hstep with
  | pushDown _ => exact ⟨h.pushDown hp, hshaper⟩
  | restrict _ hbody hs => exact ⟨h.restrict hp (hp.lowerIn hb h (hinline hbody) hs).1, hshaper⟩
  | exclude _ hbody hs =>
    exact ⟨h.restrict hp (hp.not (hp.lowerIn hb h (hinline hbody) hs).1), hshaper⟩
  | project _ hbody hbound =>
    have hbound := Scope.bind_bound _ _ _ _ hbound
    refine ⟨h.project (hbound.keeps (fun _ => rfl) (fun _ _ he hs => hp.lowerIn hb h he hs) (fun s hs => ?_)
      (hinline hbody)), hbound.shaper_callsOnly allowed⟩
    exact ⟨h.shape s hs, h.context.shape s hs⟩
  | orderBy _ _ hbody hs =>
    obtain ⟨hkey, hvalue⟩ := hp.lowerIn hb h (hinline hbody) hs
    exact ⟨h.orderBy hkey hvalue, hshaper⟩
  | thenBy _ _ hbody hs =>
    obtain ⟨hkey, hvalue⟩ := hp.lowerIn hb h (hinline hbody) hs
    exact ⟨h.thenBy hkey hvalue, hshaper⟩
  | skip _ hbody hs =>
    obtain ⟨hcount, hvalue⟩ := hp.lowerIn_count hb h hbody hs
    exact ⟨h.skip hcount hvalue, hshaper⟩
  | take _ hbody hs =>
    obtain ⟨hcount, hvalue⟩ := hp.lowerIn_count hb h hbody hs
    exact ⟨h.take hcount hvalue, hshaper⟩
  | takeOne _ => exact ⟨h.take (hp.int [] 1) rfl, hshaper⟩
  | makeDistinct _ => exact ⟨h.makeDistinct, hshaper⟩
  | reverse _ => exact ⟨h.reverse, hshaper⟩
  | unordered _ => exact ⟨h.unordered, hshaper⟩
  | existence negated => exact ⟨hp.existence_holds h negated, rfl⟩
  | rowTotal hname type _ =>
    refine hreturning _ ⟨hp.function hname _ (List.forall_mem_singleton.2 ?_), rfl⟩
    exact hp.fragment _ "*" type
  | aggregate _ hcompute hs hr =>
    have hmem := Draft.scalar?_mem hs
    have hinput := hp.resolve (hp.weaken (h.shape _ hmem) (h.context.shape _ hmem))
    refine hreturning _ (hp.aggregate hcompute hinput ?_ hr)
    rw [Catalog.asValue_resolve]
    exact h.context.shape _ hmem
  | ensureNonEmpty _ =>
    refine ⟨h, ?_⟩
    simp only [Expr.callsOnly, Expr.everywhere, Bool.and_eq_true]
    exact ⟨rfl, hshaper⟩
  | expecting _ => exact ⟨h, hshaper⟩

/-- Some steps keep the property. -/
theorem steps (hp : Kept env g p r) (hb : BodiesKept env A allowed r) (h : q.draft.Holds g p)
    (hshaper : q.shaper.callsOnly allowed = true) (hsteps : env.Steps A q q') :
    q'.draft.Holds g p :=
  (hsteps.preserve (I := fun q => q.draft.Holds g p ∧ q.shaper.callsOnly allowed = true)
    (fun _ _ hq hstep => hp.step hb hq hstep) ⟨h, hshaper⟩).1

end Kept

end QueryPipeline
