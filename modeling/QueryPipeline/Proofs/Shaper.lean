import Mathlib.Data.List.Nodup
import QueryPipeline.Proofs.Steps
import QueryPipeline.Proofs.Subexpressions

/-!
# Shapers and shapes agree

A shaper says how a result is put together from a row, the shape of a draft says what every path leads to,
and different operators change them: a selector sets both, a push-down replaces the scalars of the shape,
an aggregation leaves a single scalar. `Fits` says that they agree: the shape has one entry for every leaf
of the shaper, in order, under the path that the leaf reads. No two entries have the same path when no
shape that a pipeline writes has two members of the same name.
-/

set_option autoImplicit false

namespace QueryPipeline

open Sql

/-- The properties that a path leads to are those of an entity, in their order. -/
def Sql.EntityColumns.Of (entity : EntityType) (e : EntityColumns) : Prop :=
  e.columns.map (·.1) = entity.properties.map (·.name)

/-- The leaves of a shaper read these paths, in order. The members of a shape are taken one by one, and
what they read goes on from the path of the shape through their names. -/
inductive Expr.ReadsPaths : Expr → MemberPath → List MemberPath → Prop
  | binding (path : MemberPath) (type : DataType) : ReadsPaths (.binding path type) path [path]
  | nonEmpty (path : MemberPath) (type : DataType) :
      ReadsPaths (.ensureNonEmpty (.binding path type)) path [path]
  | entity (name : String) (path : MemberPath) : ReadsPaths (.entity name path) path [path]
  | shapeNil (path : MemberPath) : ReadsPaths (.shape []) path []
  | shapeCons {path : MemberPath} {name : String} {e : Expr} {rest : List ShapeMember}
      {paths others : List MemberPath} (he : ReadsPaths e (path.append name) paths)
      (hrest : ReadsPaths (.shape rest) path others) :
      ReadsPaths (.shape (⟨some name, e⟩ :: rest)) path (paths ++ others)

namespace Expr.ReadsPaths

variable {e : Expr} {path : MemberPath} {paths : List MemberPath}

/-- Every path that is read goes on from the path of the shaper. -/
theorem path_prefix (h : e.ReadsPaths path paths) : ∀ p ∈ paths, path.members <+: p.members := by
  induction h with
  | binding path _ => exact List.forall_mem_singleton.2 List.prefix_rfl
  | nonEmpty path _ => exact List.forall_mem_singleton.2 List.prefix_rfl
  | entity _ path => exact List.forall_mem_singleton.2 List.prefix_rfl
  | shapeNil path => exact List.forall_mem_nil _
  | shapeCons _ _ ihe ihrest =>
    refine List.forall_mem_append.2 ⟨fun p hp => ?_, ihrest⟩
    exact (List.prefix_append _ _).trans (ihe p hp)

/-- Every path that some members read goes through one of these members. -/
theorem path_member {members : List ShapeMember} (h : (Expr.shape members).ReadsPaths path paths) :
    ∀ p ∈ paths, ∃ name ∈ members.filterMap (·.name), (path.append name).members <+: p.members := by
  generalize he : Expr.shape members = e at h
  induction h generalizing members with
  | binding _ _ => cases he
  | nonEmpty _ _ => cases he
  | entity _ _ => cases he
  | shapeNil path => exact List.forall_mem_nil _
  | shapeCons hfirst _ _ ihrest =>
    cases he
    refine List.forall_mem_append.2 ⟨fun p hp => ?_, fun p hp => ?_⟩
    · exact ⟨_, by simp, hfirst.path_prefix p hp⟩
    · obtain ⟨name, hname, hprefix⟩ := ihrest rfl p hp
      exact ⟨name, by simp [hname], hprefix⟩

/-- When no shape of the shaper has two members of the same name, no path is read by two leaves. -/
theorem nodup (h : e.ReadsPaths path paths) (hdistinct : e.hasDistinctMembers = true) : paths.Nodup := by
  induction h with
  | binding _ _ => exact List.nodup_singleton _
  | nonEmpty _ _ => exact List.nodup_singleton _
  | entity _ _ => exact List.nodup_singleton _
  | shapeNil _ => exact List.nodup_nil
  | @shapeCons path name e rest paths others he hrest ihe ihrest =>
    obtain ⟨hname, hfirst, hothers⟩ := Expr.hasDistinctMembers_cons.1 hdistinct
    rw [List.nodup_append]
    refine ⟨ihe hfirst, ihrest hothers, ?_⟩
    -- a path of the first member and one of another member differ in the name of the member
    rintro p hp _ hp' rfl
    obtain ⟨name', hname', hprefix'⟩ := hrest.path_member p hp'
    have hprefix := he.path_prefix p hp
    have hsame : (path.append name).members = (path.append name').members := by
      refine (List.prefix_of_prefix_length_le hprefix hprefix' ?_).eq_of_length ?_ <;>
        simp [MemberPath.append]
    have : name = name' := by simpa [MemberPath.append] using hsame
    exact hname (this ▸ hname')

end Expr.ReadsPaths

/-- A shaper reads exactly what a shape leads to from a path on. The members of a shaper are taken one by
one. -/
inductive Fits (entity : EntityType) : Expr → MemberPath → Shape → Prop
  | scalar (path : MemberPath) (s : Scalar) :
      Fits entity (.binding path s.type) path [(path, .scalar s)]
  | nonEmpty (path : MemberPath) (s : Scalar) :
      Fits entity (.ensureNonEmpty (.binding path s.type)) path [(path, .scalar s)]
  | entity (path : MemberPath) {e : EntityColumns} (h : e.Of entity) :
      Fits entity (.entity entity.name path) path [(path, .entity e)]
  | shapeNil (path : MemberPath) : Fits entity (.shape []) path []
  | shapeCons {path : MemberPath} {name : String} {e : Expr} {rest : List ShapeMember}
      {shape shapes : Shape} (he : Fits entity e (path.append name) shape)
      (hrest : Fits entity (.shape rest) path shapes) :
      Fits entity (.shape (⟨some name, e⟩ :: rest)) path (shape ++ shapes)

/-- Under different keys, every value is found under its key. -/
theorem lookup_of_mem {α β : Type} [BEq α] [LawfulBEq α] {l : List (α × β)}
    (hnodup : (l.map (·.1)).Nodup) {a : α} {b : β} (h : (a, b) ∈ l) : l.lookup a = some b := by
  induction l with
  | nil => cases h
  | cons p rest ih =>
    obtain ⟨a', b'⟩ := p
    rw [List.map_cons, List.nodup_cons] at hnodup
    rcases List.mem_cons.1 h with heq | hrest
    · cases heq
      simp
    · have hne : a ≠ a' := by
        rintro rfl
        exact hnodup.1 (List.mem_map.2 ⟨(a, b), hrest, rfl⟩)
      rw [List.lookup_cons, beq_eq_false_iff_ne.2 hne]
      exact ih hnodup.2 hrest

/-- An entity in an expression is the given one. -/
def Expr.namesEntity (name : String) : Expr → Bool
  | .entity n _ => n == name
  | _ => true

namespace Fits

variable {entity : EntityType} {e : Expr} {path : MemberPath} {shape : Shape}

/-- Other scalars of the same types fit as well. -/
theorem related {R : Scalar → Scalar → Prop} (htype : ∀ s s', R s s' → s'.type = s.type)
    (h : Fits entity e path shape) {shape' : Shape} (hR : Shape.Related R shape shape') :
    Fits entity e path shape' := by
  induction h generalizing shape' with
  | scalar path s =>
    obtain ⟨s', rfl, hs⟩ := hR.scalar_inv
    rw [← htype s s' hs]
    exact .scalar path s'
  | nonEmpty path s =>
    obtain ⟨s', rfl, hs⟩ := hR.scalar_inv
    rw [← htype s s' hs]
    exact .nonEmpty path s'
  | entity path hof =>
    obtain ⟨columns, rfl, hcolumns⟩ := hR.entity_inv
    exact .entity path ((keys_eq hcolumns).symm.trans hof)
  | shapeNil path =>
    cases hR
    exact .shapeNil path
  | shapeCons _ _ ihe ihrest =>
    obtain ⟨front, back, rfl, hfront, hback⟩ := hR.append_inv
    exact .shapeCons (ihe hfront) (ihrest hback)

/-- The paths of the shape are those that the shaper reads. -/
theorem readsPaths (h : Fits entity e path shape) : e.ReadsPaths path (shape.map (·.1)) := by
  induction h with
  | scalar path s => exact .binding path s.type
  | nonEmpty path s => exact .nonEmpty path s.type
  | entity path _ => exact .entity entity.name path
  | shapeNil path => exact .shapeNil path
  | shapeCons _ _ ihe ihrest =>
    rw [List.map_append]
    exact .shapeCons ihe ihrest

/-- When no shape of the shaper has two members of the same name, no two paths are the same. -/
theorem nodup (h : Fits entity e path shape) (hdistinct : e.hasDistinctMembers = true) :
    (shape.map (·.1)).Nodup :=
  h.readsPaths.nodup hdistinct

/-- The entities of a fitting shape have the properties of the entity. -/
theorem entity_columns (h : Fits entity e path shape) :
    ∀ p ∈ shape, ∀ columns, p.2 = .entity columns → columns.Of entity := by
  induction h with
  | scalar _ _ => exact List.forall_mem_singleton.2 nofun
  | nonEmpty _ _ => exact List.forall_mem_singleton.2 nofun
  | entity _ hof =>
    refine List.forall_mem_singleton.2 ?_
    rintro _ ⟨⟩
    exact hof
  | shapeNil _ => exact List.forall_mem_nil _
  | shapeCons _ _ ihe ihrest => exact List.forall_mem_append.2 ⟨ihe, ihrest⟩

/-- The entities of a fitting shaper have the name of the entity. -/
theorem names_entity (h : Fits entity e path shape) :
    e.everywhere (Expr.namesEntity entity.name) = true := by
  induction h with
  | scalar _ _ => rfl
  | nonEmpty _ _ => rfl
  | entity _ _ => simp [Expr.everywhere, Expr.namesEntity]
  | shapeNil _ => rfl
  | shapeCons _ _ ihe ihrest =>
    simp only [Expr.everywhere, everywhereMembers, Expr.namesEntity, Bool.true_and] at ihrest ⊢
    simp [ihe, ihrest]

end Fits

namespace Bound

variable {scope : Scope} {entity : EntityType} {e shaper : Expr} {path : MemberPath} {shape : Shape}

/-- The paths of the shape that a selector becomes are those that its shaper reads. -/
theorem readsPaths (h : Bound scope e path shaper shape) : shaper.ReadsPaths path (shape.map (·.1)) := by
  induction h with
  | leaf _ _ _ => exact .binding _ _
  | entity _ _ => exact .entity _ _
  | shapeNil _ => exact .shapeNil _
  | shapeCons _ _ _ ihm ihrest =>
    rw [List.map_append]
    exact .shapeCons ihm ihrest

/-- What a selector becomes fits, when the entities of the draft and of the selector are the entity. -/
theorem fits (hdraft : ∀ path columns, scope.draft.projected? path = some (.entity columns) →
      columns.Of entity) (h : Bound scope e path shaper shape)
    (hnames : e.everywhere (Expr.namesEntity entity.name) = true) : Fits entity shaper path shape := by
  induction h with
  | leaf _ _ _ => exact .scalar _ _
  | entity he hcolumns =>
    have hself := Expr.everywhere_self (Expr.everywhere_reduceMembers hnames)
    rw [he] at hself
    rw [eq_of_beq hself]
    exact .entity _ (hdraft _ _ hcolumns)
  | shapeNil _ => exact .shapeNil _
  | shapeCons he _ _ ihm ihrest =>
    have hmembers := Expr.everywhere_reduceMembers hnames
    simp only [he, Expr.everywhere, everywhereMembers, Bool.and_eq_true] at hmembers
    refine .shapeCons (ihm hmembers.2.1) (ihrest ?_)
    simp only [Expr.everywhere, Expr.namesEntity, Bool.true_and]
    exact hmembers.2.2

/-- The shaper of some members has members of the same names. -/
theorem names {members bound : List ShapeMember}
    (h : Bound scope (.shape members) path (.shape bound) shape) :
    bound.map (·.name) = members.map (·.name) := by
  generalize he : Expr.shape members = e at h
  generalize hshaper : Expr.shape bound = shaper at h
  induction h generalizing members bound with
  | leaf _ _ _ => cases hshaper
  | entity _ _ => cases hshaper
  | shapeNil hmembers =>
    cases hshaper
    subst he
    cases hmembers
    rfl
  | shapeCons hmembers _ _ _ ihrest =>
    cases hshaper
    subst he
    cases hmembers
    simp [ihrest rfl rfl]

/-- When no shape of a selector has two members of the same name, no shape of its shaper has. -/
theorem hasDistinctMembers (h : Bound scope e path shaper shape)
    (hdistinct : e.hasDistinctMembers = true) : shaper.hasDistinctMembers = true := by
  induction h with
  | leaf _ _ _ => rfl
  | entity _ _ => rfl
  | shapeNil _ => rfl
  | shapeCons he _ hrest ihm ihrest =>
    have hmembers := Expr.everywhere_reduceMembers hdistinct
    rw [he] at hmembers
    obtain ⟨hname, hm, hothers⟩ := Expr.hasDistinctMembers_cons.1 hmembers
    refine Expr.hasDistinctMembers_cons.2 ⟨?_, ihm hm, ihrest hothers⟩
    have hnames := congrArg (List.filterMap id) hrest.names
    simp only [List.filterMap_map, Function.comp_def, id] at hnames
    rwa [hnames]

end Bound

/-- The shaper of a query agrees with its shape, and no two of its members are the same. -/
structure ShapedDraft.Agrees (entity : EntityType) (q : ShapedDraft) : Prop where
  fits : Fits entity q.shaper .root q.draft.shape
  distinct : q.shaper.hasDistinctMembers = true

namespace ShapedDraft.Agrees

variable {entity : EntityType} {q : ShapedDraft}

/-- Every entry of the shape is found under its path. -/
theorem found (h : q.Agrees entity) {path : MemberPath} {projected : Projected}
    (hmem : (path, projected) ∈ q.draft.shape) : q.draft.projected? path = some projected :=
  lookup_of_mem (h.fits.nodup h.distinct) hmem

/-- The columns under a path of a query that agrees with an entity are columns of the entity. -/
theorem projected_columns (h : q.Agrees entity) {path : MemberPath} {columns : EntityColumns}
    (hp : q.draft.projected? path = some (.entity columns)) : columns.Of entity := by
  obtain ⟨l, r, hshape, -⟩ := List.lookup_eq_some_iff.1 hp
  exact h.fits.entity_columns (path, .entity columns) (by simp [hshape]) columns rfl

/-- Shaper and shape still agree after the draft has been pushed down. -/
theorem pushDown (h : q.Agrees entity) : q.pushDown.Agrees entity := by
  refine ⟨h.fits.related ?_ q.draft.outerShape_related, h.distinct⟩
  rintro s _ ⟨_, _, _, _, _, rfl⟩
  rfl

end ShapedDraft.Agrees

/-- A body that a pipeline may contain, without two members of the same name in a shape. -/
def Expr.IsPlainSource (e : Expr) : Prop := e.isSource = true ∧ e.hasDistinctMembers = true

namespace Environment

variable {env : Environment} {entity : EntityType} {q q' : ShapedDraft}

/-- The query over the table of an entity agrees with it. -/
theorem start_agrees (env : Environment) (entity : EntityType) :
    (env.startQuery entity).Agrees entity := by
  refine ⟨.entity .root ?_, rfl⟩
  simp [EntityColumns.Of, Function.comp_def]

/-- The body of a selector with the shaper in it only has entities of the shaper. -/
theorem inline_names {f : Lambda} (h : q.Agrees entity) (hbody : f.body.isSource = true) :
    (f.inline q.shaper).everywhere (Expr.namesEntity entity.name) = true := by
  refine Expr.everywhere_inline (fun g e he hne => ?_) (fun _ => rfl)
    (Expr.everywhere_imp (fun e he => ?_) hbody) h.fits.names_entity
  · cases e with
    | param name => exact absurd rfl (hne name)
    | entity _ _ => exact he
    | _ => rfl
  · cases e with
    | entity _ _ => cases he
    | _ => rfl

/-- The body of a selector with the shaper in it has no two members of the same name. -/
theorem inline_hasDistinctMembers {f : Lambda} (h : q.Agrees entity)
    (hbody : f.body.hasDistinctMembers = true) : (f.inline q.shaper).hasDistinctMembers = true :=
  Expr.everywhere_inline (fun g _ he hne => Expr.namesDiffer_mapParams g he hne) (fun _ => rfl) hbody
    h.distinct

/-- Every step leaves shaper and shape in agreement. -/
theorem Step.agrees (h : q.Agrees entity) (hstep : env.Step Expr.IsPlainSource q q') :
    q'.Agrees entity := by
  have hsingle : ∀ (s : Scalar) (d : Draft), d.shape = [(.root, .scalar s)] →
      ShapedDraft.Agrees entity ⟨d, .binding .root s.type, .single⟩ := by
    intro s d hd
    refine ⟨?_, rfl⟩
    rw [hd]
    exact .scalar .root s
  have hrestrict : ∀ s : Scalar, (q.mapDraft (·.restrict s)).Agrees entity := fun s =>
    ⟨by simpa [ShapedDraft.mapDraft] using h.fits, h.distinct⟩
  cases hstep with
  | pushDown _ => exact h.pushDown
  | restrict _ _ _ => exact hrestrict _
  | exclude _ _ _ => exact hrestrict _
  | project _ hbody hbound =>
    have hbound := Scope.bind_bound _ _ _ _ hbound
    exact ⟨hbound.fits (fun _ _ => h.projected_columns) (inline_names h hbody.1),
      hbound.hasDistinctMembers (inline_hasDistinctMembers h hbody.2)⟩
  | thenBy _ _ _ _ => exact ⟨by simpa [ShapedDraft.mapDraft] using h.fits, h.distinct⟩
  | existence _ => exact hsingle _ _ rfl
  | rowTotal _ _ _ => exact hsingle _ _ rfl
  | aggregate _ _ _ _ => exact hsingle _ _ rfl
  | ensureNonEmpty hshaper =>
    obtain ⟨hfits, -⟩ := h
    rw [hshaper] at hfits
    refine ⟨?_, by simp [hshaper, Expr.hasDistinctMembers, Expr.everywhere, Expr.namesDiffer]⟩
    simp only [hshaper]
    generalize q.draft.shape = shape at hfits ⊢
    cases hfits with
    | scalar _ s => exact .nonEmpty _ s
  | _ => exact ⟨h.fits, h.distinct⟩

/-- Shaper and shape agree after some steps from the query that returns the rows of an entity. -/
theorem Steps.agrees (hsteps : env.Steps Expr.IsPlainSource (env.startQuery entity) q) :
    q.Agrees entity :=
  hsteps.preserve (fun _ _ hq hstep => hstep.agrees hq) (start_agrees env entity)

end Environment

end QueryPipeline
