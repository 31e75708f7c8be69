import Mathlib.Data.List.Nodup
import QueryPipeline.Proofs.Nodes

/-!
# Columns are found

Every column that a statement refers to is a column of a source that stands next to it: a column of the
table of the entity, or the one column of a subquery that has this name. Only limits and offsets, which the
database evaluates without a row, refer to no columns.

A draft keeps this for its own scalars and for all selects in it, whatever operators do to it. When it is
pushed down, all scalars that are left refer to the columns of the new subquery, whose names differ.
-/

set_option autoImplicit false

namespace QueryPipeline

open Sql

namespace Sql

/-- A source has a column of this name: the table of an entity for each property, a subquery when exactly
one of its columns has the name. -/
def TableSource.Provides (entity : EntityType) (name : String) : TableSource → Prop
  | .table tableName schema _ =>
    tableName = entity.tableName ∧ schema = entity.schema ∧
      ∃ p ∈ entity.properties, p.columnName = name
  | .subquery select _ => (select.projection.filter (·.aliasName == some name)).length = 1

/-- Every column of a scalar is provided by one of some sources, under its alias. -/
def Scalar.Resolves (entity : EntityType) (tables : List TableSource) (s : Scalar) : Prop :=
  ∀ part ∈ s.parts, ∀ table name, part.node = .column table name →
    ∃ source ∈ tables, source.aliasName = table ∧ source.Provides entity name

/-- Every column of a select is provided by its own sources, limit and offset have no columns, and the
columns of its subqueries can be told apart by their names. -/
structure Select.Resolves (entity : EntityType) (s : Select) : Prop where
  projection : ∀ c ∈ s.projection, c.expr.Resolves entity s.tables
  predicate : ∀ p ∈ s.predicate, p.Resolves entity s.tables
  orderings : ∀ k ∈ s.orderings, k.expr.Resolves entity s.tables
  limit : ∀ count ∈ s.limit, ∀ part ∈ count.parts, ∀ table name, part.node ≠ .column table name
  offset : ∀ count ∈ s.offset, ∀ part ∈ count.parts, ∀ table name, part.node ≠ .column table name
  named : ∀ inner aliasName, TableSource.subquery inner aliasName ∈ s.tables →
    NamesColumns inner.projection

/-- Without sources, a scalar whose columns are provided has none. -/
theorem Scalar.Resolves.no_column {entity : EntityType} {s : Scalar} (h : s.Resolves entity []) :
    ∀ part ∈ s.parts, ∀ table name, part.node ≠ .column table name := by
  intro part hpart table name hnode
  obtain ⟨_, hmem, -⟩ := h part hpart table name hnode
  cases hmem

/-- In a select where all names are resolved in place, they are resolved at every depth. -/
theorem Select.Holds.resolves {entity : EntityType} {s : Select}
    (h : s.Holds fun tables s => s.Resolves entity tables) : s.Resolves entity :=
  ⟨h.projection, h.predicate, h.orderings, fun s hs => (h.limit s hs).no_column,
    fun s hs => (h.offset s hs).no_column, h.named⟩

/-- A name that one column of a projection has is the name of no other one. -/
theorem NamesColumns.provides {columns : List OutputColumn} (h : NamesColumns columns)
    {c : OutputColumn} (hc : c ∈ columns) {name : String} (hname : c.aliasName = some name) :
    (columns.filter (·.aliasName == some name)).length = 1 := by
  obtain ⟨-, hnodup⟩ := h
  have hcount := List.count_eq_one_of_mem hnodup (List.mem_filterMap.2 ⟨c, hc, hname⟩)
  rw [← List.countP_eq_length_filter, ← hcount, List.count, List.countP_filterMap]
  refine List.countP_congr fun c' _ => ?_
  cases c'.aliasName <;> simp

/-- What a node has to be in a draft over some sources: a column of one of them, or a question about a
select that finds its columns. -/
structure Node.Sound (entity : EntityType) (tables : List TableSource) (n : Node) : Prop where
  column : ∀ table name, n = .column table name →
    ∃ source ∈ tables, source.aliasName = table ∧ source.Provides entity name
  existence : ∀ inner negated, n = .existsIn inner negated →
    inner.AllHold fun tables s => s.Resolves entity tables

/-- All nodes of a scalar are sound. -/
def Scalar.Sound (entity : EntityType) (tables : List TableSource) (s : Scalar) : Prop :=
  s.AllNodes (Node.Sound entity tables)

/-- The names in a sound scalar are resolved. -/
theorem Scalar.Sound.resolves {entity : EntityType} {tables : List TableSource} {s : Scalar}
    (h : s.Sound entity tables) : s.Resolves entity tables :=
  fun part hpart table name hnode => (h part hpart).column table name hnode

/-- Soundness says something only about columns and questions about selects. -/
theorem sound_onReferences (entity : EntityType) (tables : List TableSource) :
    OnReferences (Node.Sound entity tables) where
  free h := by
    constructor
    · rintro table name rfl
      cases h
    · rintro inner negated rfl
      cases h
  withMapping _ h :=
    ⟨fun table name hnode => h.column table name (Node.eq_of_withMapping hnode nofun nofun nofun),
      fun inner negated hnode => h.existence inner negated (Node.eq_of_withMapping hnode nofun nofun nofun)⟩

/-- A column for a column of the subquery of a draft is provided by this subquery. -/
theorem Draft.outerColumn_sound {entity : EntityType} {d : Draft} {s s' : Scalar}
    (h : OuterColumn d.subqueryProjection.columns s s') :
    s'.Sound entity [.subquery d.subquery subqueryAlias] := by
  obtain ⟨c, hc, name, hname, -, rfl⟩ := h
  refine Scalar.all_of_leaf ⟨?_, nofun⟩ rfl
  intro table name' hnode
  cases hnode
  exact ⟨_, List.mem_singleton_self _, rfl,
    NamesColumns.provides d.subqueryProjection_wellNamed hc hname⟩

end Sql

variable {env : Environment} {entity : EntityType}

/-- Operators keep the columns of scalars provided. -/
theorem sound_kept (env : Environment) (entity : EntityType) :
    Kept env (fun tables s => s.Resolves entity tables) (fun tables s => s.Sound entity tables)
      (fun tables s => s.Sound entity tables) :=
  .ofNodes env (sound_onReferences entity) (fun h => Scalar.Sound.resolves h)
    (fun h => h.existence _ _ rfl) Draft.outerColumn_sound fun h => ⟨nofun, by rintro _ _ ⟨⟩; exact h⟩

/-- The query that returns the rows of an entity reads the columns of its table. -/
theorem Environment.start_sound (env : Environment) (entity : EntityType) :
    (env.startQuery entity).draft.Holds (fun tables s => s.Resolves entity tables)
      (fun tables s => s.Sound entity tables) := by
  refine startQuery_holds fun p hp => Scalar.all_of_leaf ⟨?_, nofun⟩ rfl
  intro table name hnode
  cases hnode
  exact ⟨_, List.mem_singleton_self _, rfl, rfl, rfl, p, hp, rfl⟩

/-- Every column that a statement refers to is found. A pipeline that is accepted starts from an entity,
and all selects of its statement, at any depth, refer to columns of their own sources only: to columns of
properties of the entity in its table, and to columns of subqueries whose columns all have different
names. Limits and offsets refer to no columns. -/
theorem lower_columns_resolve (model : Model) (options : Options) (query : Query)
    (shaped : ShapedQuery) (h : (Compiler.new model options).lower query = .ok shaped)
    (hsource : ∀ e ∈ query.bodies, e.isSource = true) :
    ∃ entity, model.findEntity? query.source = some entity ∧
      ∀ s : Select, s.Within shaped.select → s.Resolves entity := by
  obtain ⟨entity, q, hentity, hsteps, rfl⟩ :=
    Environment.lower_steps (Compiler.lower_eq_ok h) hsource
  have hkept := sound_kept (Compiler.new model options).environment entity
  have hbodies : BodiesKept (Compiler.new model options).environment _ _ _ :=
    .ofClosed (fun tables => (sound_onReferences entity tables).closed _)
      (fun P hP => hP.ofDialect_keep options.dialect) fun _ => id
  have hholds := hkept.steps hbodies (Environment.start_sound _ entity) rfl hsteps
  exact ⟨entity, hentity, fun s hs => (hholds.finish hkept s hs).resolves⟩

/-- All selects of the statement for the last named persons find their columns. -/
theorem lastNamed_columns_resolve :
    ∃ shaped, (Compiler.new .persons .standard).lower .lastNamed = .ok shaped ∧
      (∀ e ∈ Query.lastNamed.bodies, e.isSource = true) ∧
      ∃ entity, Model.persons.findEntity? "Person" = some entity ∧
        ∀ s : Select, s.Within shaped.select → s.Resolves entity := by
  have hsource : ∀ e ∈ Query.lastNamed.bodies, e.isSource = true := by decide
  obtain ⟨shaped, h⟩ : ∃ shaped, (Compiler.new .persons .standard).lower .lastNamed = .ok shaped :=
    exists_of_isOk (by decide +kernel)
  exact ⟨shaped, h, hsource, lower_columns_resolve .persons .standard .lastNamed shaped h hsource⟩

end QueryPipeline
