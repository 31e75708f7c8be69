import Mathlib.Data.List.Forall2
import QueryPipeline.Proofs.FreshName
import QueryPipeline.Sql.Draft

/-!
# What projections hold

A projection only gains columns, every column it gains is one of the scalars that were added, and the
position that comes back with a scalar is the position of a column for this scalar. The names of a named
projection are there for every column and differ from each other, so a column of a subquery can be found
by its name. `addShape` and `addKeys` are described by these facts alone.
-/

set_option autoImplicit false

namespace QueryPipeline.Sql

/-- Lists with the same keys in the same order find related values under a key. -/
theorem lookup_related {α β γ : Type} [BEq α] {R : β → γ → Prop} {l : List (α × β)}
    {l' : List (α × γ)} (h : List.Forall₂ (fun p q => p.1 = q.1 ∧ R p.2 q.2) l l') (a : α) :
    Option.Rel R (l.lookup a) (l'.lookup a) := by
  induction h with
  | nil => exact .none
  | @cons p q _ _ hpq _ ih =>
    obtain ⟨key, value⟩ := p
    obtain ⟨key', value'⟩ := q
    obtain ⟨rfl, hR⟩ := hpq
    simp only [List.lookup_cons]
    split
    · exact .some hR
    · exact ih

/-- What two shapes lead to, with scalars that are related one by one. -/
inductive Projected.Related (R : Scalar → Scalar → Prop) : Projected → Projected → Prop
  | scalar {s s' : Scalar} (h : R s s') : Projected.Related R (.scalar s) (.scalar s')
  | entity {name : String} {columns columns' : List (String × Scalar)}
      (h : List.Forall₂ (fun c c' => c.1 = c'.1 ∧ R c.2 c'.2) columns columns') :
      Projected.Related R (.entity ⟨name, columns⟩) (.entity ⟨name, columns'⟩)

/-- Two shapes have the same paths in the same order, and related scalars under them. -/
def Shape.Related (R : Scalar → Scalar → Prop) (shape shape' : Shape) : Prop :=
  List.Forall₂ (fun p p' => p.1 = p'.1 ∧ Projected.Related R p.2 p'.2) shape shape'

/-- The scalars of what a path leads to, in order. -/
def Projected.scalars : Projected → List Scalar
  | .scalar s => [s]
  | .entity e => e.columns.map (·.2)

/-- The scalars of a shape, in order. -/
def Shape.scalars (shape : Shape) : List Scalar := shape.flatMap (·.2.scalars)

/-- Of two related lists, every member of the second one comes from a member of the first one. -/
theorem exists_of_mem_right {α β : Type} {R : α → β → Prop} {l : List α} {l' : List β}
    (h : List.Forall₂ R l l') {b : β} (hb : b ∈ l') : ∃ a ∈ l, R a b := by
  induction h with
  | nil => cases hb
  | cons hab _ ih =>
    rcases List.mem_cons.1 hb with rfl | hb
    · exact ⟨_, List.mem_cons_self, hab⟩
    · obtain ⟨a, ha, hR⟩ := ih hb
      exact ⟨a, List.mem_cons_of_mem _ ha, hR⟩

/-- Every scalar of a related shape comes from a scalar of the first one. -/
theorem Shape.Related.exists_of_mem_scalars {R : Scalar → Scalar → Prop} {shape shape' : Shape}
    (h : Shape.Related R shape shape') {s' : Scalar} (hs' : s' ∈ shape'.scalars) :
    ∃ s ∈ shape.scalars, R s s' := by
  obtain ⟨p', hp', hs'⟩ := List.mem_flatMap.1 hs'
  obtain ⟨p, hp, -, hpp'⟩ := exists_of_mem_right h hp'
  obtain ⟨path, projected⟩ := p
  obtain ⟨path', projected'⟩ := p'
  cases hpp' with
  | @scalar s _ hR =>
    cases List.mem_singleton.1 hs'
    exact ⟨s, List.mem_flatMap.2 ⟨_, hp, List.mem_singleton_self s⟩, hR⟩
  | entity hcolumns =>
    obtain ⟨c', hc', rfl⟩ := List.mem_map.1 hs'
    obtain ⟨c, hc, -, hR⟩ := exists_of_mem_right hcolumns hc'
    exact ⟨c.2, List.mem_flatMap.2 ⟨_, hp, List.mem_map_of_mem hc⟩, hR⟩

/-- Lists that agree in their keys have the same keys. -/
theorem keys_eq {α β γ : Type} {R : β → γ → Prop} {l : List (α × β)} {l' : List (α × γ)}
    (h : List.Forall₂ (fun p q => p.1 = q.1 ∧ R p.2 q.2) l l') : l.map (·.1) = l'.map (·.1) := by
  induction h with
  | nil => rfl
  | cons hpq _ ih => rw [List.map_cons, List.map_cons, hpq.1, ih]

namespace Shape.Related

variable {R : Scalar → Scalar → Prop} {shape' : Shape} {path : MemberPath}

/-- A shape of one scalar is related to one of one scalar only. -/
theorem scalar_inv {s : Scalar} (h : Shape.Related R [(path, .scalar s)] shape') :
    ∃ s', shape' = [(path, .scalar s')] ∧ R s s' := by
  cases h with
  | @cons _ p _ _ hp hrest =>
    cases hrest
    obtain ⟨path', projected⟩ := p
    obtain ⟨rfl, hp⟩ := hp
    cases hp with
    | @scalar _ s' hs => exact ⟨s', rfl, hs⟩

/-- A shape of one entity is related to one of the same entity only, with related columns. -/
theorem entity_inv {e : EntityColumns} (h : Shape.Related R [(path, .entity e)] shape') :
    ∃ columns, shape' = [(path, .entity ⟨e.entity, columns⟩)] ∧
      List.Forall₂ (fun c c' => c.1 = c'.1 ∧ R c.2 c'.2) e.columns columns := by
  cases h with
  | @cons _ p _ _ hp hrest =>
    cases hrest
    obtain ⟨path', projected⟩ := p
    obtain ⟨rfl, hp⟩ := hp
    cases hp with
    | @entity _ _ columns hcolumns => exact ⟨columns, rfl, hcolumns⟩

/-- What is related to a shape in two parts is in two parts that are related to these. -/
theorem append_inv {shape shapes : Shape} (h : Shape.Related R (shape ++ shapes) shape') :
    ∃ front back, shape' = front ++ back ∧ Shape.Related R shape front ∧
      Shape.Related R shapes back := by
  induction shape generalizing shape' with
  | nil => exact ⟨[], shape', rfl, .nil, h⟩
  | cons p rest ih =>
    cases h with
    | cons hp hrest =>
      obtain ⟨front, back, rfl, hfront, hback⟩ := ih hrest
      exact ⟨_, back, rfl, .cons hp hfront, hback⟩

end Shape.Related

/-- The column at a position is the given scalar as a value. -/
def HoldsAt (columns : List OutputColumn) (position : Nat) (s : Scalar) : Prop :=
  ∃ c, columns[position]? = some c ∧ c.expr = s.asValueForm

/-- A slot leads to the columns of what a path leads to. -/
inductive Slot.Holds (columns : List OutputColumn) : Projected → Slot → Prop
  | scalar {s : Scalar} {position : Nat} (h : HoldsAt columns position s) :
      Slot.Holds columns (.scalar s) (.scalar position)
  | entity {e : EntityColumns} {positions : List (String × Nat)}
      (h : List.Forall₂ (fun c p => c.1 = p.1 ∧ HoldsAt columns p.2 c.2) e.columns positions) :
      Slot.Holds columns (.entity e) (.entity positions)

/-- The slots of a row lead to the columns of a shape, path by path. -/
def SlotsHold (columns : List OutputColumn) (shape : Shape) (slots : List (MemberPath × Slot)) :
    Prop :=
  List.Forall₂ (fun p q => p.1 = q.1 ∧ Slot.Holds columns p.2 q.2) shape slots

/-- A column holds a scalar after further columns, too. -/
theorem HoldsAt.mono {columns columns' : List OutputColumn} {position : Nat} {s : Scalar}
    (hle : columns <+: columns') (h : HoldsAt columns position s) : HoldsAt columns' position s := by
  obtain ⟨c, hc, hs⟩ := h
  obtain ⟨rest, rfl⟩ := hle
  obtain ⟨hlt, hget⟩ := List.getElem?_eq_some_iff.1 hc
  refine ⟨c, ?_, hs⟩
  rw [List.getElem?_append_left hlt, hc]

/-- A slot leads to the same columns after further ones, too. -/
theorem Slot.Holds.mono {columns columns' : List OutputColumn} {p : Projected} {slot : Slot}
    (hle : columns <+: columns') (h : Slot.Holds columns p slot) : Slot.Holds columns' p slot := by
  cases h with
  | scalar h => exact .scalar (h.mono hle)
  | entity h => exact .entity (h.imp fun _ _ h => ⟨h.1, h.2.mono hle⟩)

namespace Projection

/-- Every column of a named projection has a name, and no two have the same. -/
def WellNamed (p : Projection) : Prop :=
  (p.named = true → ∀ c ∈ p.columns, c.aliasName.isSome) ∧ p.names.Nodup

/-- A projection has gained columns for some scalars and is otherwise as it was. -/
structure Grows (p : Projection) (added : List Scalar) (p' : Projection) : Prop where
  named : p'.named = p.named
  grown : p.columns <+: p'.columns
  origin : ∀ c ∈ p'.columns, c ∈ p.columns ∨ ∃ s ∈ added, c.expr = s.asValueForm
  wellNamed : p.WellNamed → p'.WellNamed

/-- A projection has gained no columns over itself. -/
theorem Grows.refl (p : Projection) : p.Grows [] p :=
  ⟨rfl, List.prefix_rfl, fun _ h => .inl h, id⟩

/-- Columns gained one after the other are gained together. -/
theorem Grows.trans {p p' p'' : Projection} {added added' : List Scalar} (h : p.Grows added p')
    (h' : p'.Grows added' p'') : p.Grows (added ++ added') p'' := by
  refine ⟨h'.named.trans h.named, h.grown.trans h'.grown, ?_, h'.wellNamed ∘ h.wellNamed⟩
  intro c hc
  rcases h'.origin c hc with hc | ⟨s, hs, he⟩
  · rcases h.origin c hc with hc | ⟨s, hs, he⟩
    · exact .inl hc
    · exact .inr ⟨s, List.mem_append_left _ hs, he⟩
  · exact .inr ⟨s, List.mem_append_right _ hs, he⟩

/-- A scalar that is projected already keeps its column. -/
theorem add_of_found {p : Projection} {s : Scalar} {position : Nat}
    (h : p.columns.findIdx? (·.expr = s.asValueForm) = some position) (preferred : String) :
    p.add s preferred = (p, position) := by
  simp [add, h]

/-- The name that a new column gets. -/
def newName (p : Projection) (s : Scalar) (preferred : String) : Option String :=
  if p.named then some (freshName p.names (s.asValueForm.ownName?.getD preferred)) else none

/-- The projection with a new column for a scalar. -/
def withColumn (p : Projection) (s : Scalar) (preferred : String) : Projection :=
  { p with columns := p.columns ++ [⟨s.asValueForm, p.newName s preferred⟩] }

/-- A scalar that is not projected yet gets the next column. -/
theorem add_of_new {p : Projection} {s : Scalar}
    (h : p.columns.findIdx? (·.expr = s.asValueForm) = none) (preferred : String) :
    p.add s preferred = (p.withColumn s preferred, p.columns.length) := by
  simp [add, h, withColumn, newName]

/-- A new column adds its name, if it has one. -/
theorem names_withColumn (p : Projection) (s : Scalar) (preferred : String) :
    (p.withColumn s preferred).names = p.names ++ (p.newName s preferred).toList := by
  cases h : p.newName s preferred <;> simp [names, withColumn, h]

/-- A new column keeps the names of a projection apart. -/
theorem WellNamed.withColumn {p : Projection} (h : p.WellNamed) (s : Scalar) (preferred : String) :
    (p.withColumn s preferred).WellNamed := by
  obtain ⟨hall, hnodup⟩ := h
  constructor
  · intro hnamed c hc
    have hnamed : p.named = true := hnamed
    rcases List.mem_append.1 hc with hc | hc
    · exact hall hnamed c hc
    · simp [List.mem_singleton.1 hc, newName, hnamed]
  · rw [names_withColumn, newName]
    split
    · simpa [List.nodup_append] using
        ⟨hnodup, fun a ha h => freshName_not_mem _ _ (h ▸ ha)⟩
    · simpa using hnodup

/-- Adding a scalar gains at most a column for it, and the position is that of a column for it. -/
theorem add_grows (p : Projection) (s : Scalar) (preferred : String) :
    p.Grows [s] (p.add s preferred).1 ∧
      HoldsAt (p.add s preferred).1.columns (p.add s preferred).2 s := by
  cases hfind : p.columns.findIdx? (·.expr = s.asValueForm) with
  | some position =>
    rw [add_of_found hfind]
    obtain ⟨hlt, hexpr, -⟩ := List.findIdx?_eq_some_iff_getElem.1 hfind
    refine ⟨⟨rfl, List.prefix_rfl, fun _ h => .inl h, id⟩, p.columns[position], ?_, ?_⟩
    · exact List.getElem?_eq_getElem hlt
    · simpa using hexpr
  | none =>
    rw [add_of_new hfind]
    refine ⟨⟨rfl, List.prefix_append _ _, ?_, fun h => h.withColumn s preferred⟩, ?_⟩
    · intro c hc
      rcases List.mem_append.1 hc with hc | hc
      · exact .inl hc
      · exact .inr ⟨s, List.mem_singleton_self s, by simp [List.mem_singleton.1 hc]⟩
    · exact ⟨_, List.getElem?_concat_length, rfl⟩

/-- Adding the properties of an entity gains columns for them, and their positions are returned. -/
theorem addColumns_grows (p : Projection) (columns : List (String × Scalar)) :
    p.Grows (columns.map (·.2)) (p.addColumns columns).1 ∧
      List.Forall₂ (fun c q => c.1 = q.1 ∧ HoldsAt (p.addColumns columns).1.columns q.2 c.2) columns
        (p.addColumns columns).2 := by
  induction columns generalizing p with
  | nil => exact ⟨.refl p, .nil⟩
  | cons c rest ih =>
    obtain ⟨hadd, hpos⟩ := p.add_grows c.2 c.1
    obtain ⟨hrest, hposs⟩ := ih (p.add c.2 c.1).1
    exact ⟨hadd.trans hrest, .cons ⟨rfl, hpos.mono hrest.grown⟩ hposs⟩

/-- Adding what a path leads to gains columns for it, and the slot leads to them. -/
theorem addProjected_grows (p : Projection) (path : MemberPath) (projected : Projected) :
    p.Grows projected.scalars (p.addProjected path projected).1 ∧
      Slot.Holds (p.addProjected path projected).1.columns projected
        (p.addProjected path projected).2 := by
  cases projected with
  | scalar s =>
    obtain ⟨hadd, hpos⟩ := p.add_grows s (path.last?.getD "c")
    exact ⟨hadd, .scalar hpos⟩
  | entity e =>
    obtain ⟨hadd, hpos⟩ := p.addColumns_grows e.columns
    exact ⟨hadd, .entity hpos⟩

/-- Adding a shape gains columns for its scalars, and the slots lead to them. -/
theorem addShape_grows (p : Projection) (shape : Shape) :
    p.Grows shape.scalars (p.addShape shape).1 ∧
      SlotsHold (p.addShape shape).1.columns shape (p.addShape shape).2 := by
  induction shape generalizing p with
  | nil => exact ⟨.refl p, .nil⟩
  | cons q rest ih =>
    obtain ⟨path, projected⟩ := q
    obtain ⟨hadd, hslot⟩ := p.addProjected_grows path projected
    obtain ⟨hrest, hslots⟩ := ih (p.addProjected path projected).1
    exact ⟨hadd.trans hrest, .cons ⟨rfl, hslot.mono hrest.grown⟩ hslots⟩

/-- Adding the keys of orderings gains columns for them, and their positions are returned. -/
theorem addKeys_grows (p : Projection) (keys : List SortKey) :
    p.Grows (keys.map (·.expr)) (p.addKeys keys).1 ∧
      List.Forall₂ (fun k position => HoldsAt (p.addKeys keys).1.columns position k.expr) keys
        (p.addKeys keys).2 := by
  induction keys generalizing p with
  | nil => exact ⟨.refl p, .nil⟩
  | cons k rest ih =>
    obtain ⟨hadd, hpos⟩ := p.add_grows k.expr "c"
    obtain ⟨hrest, hposs⟩ := ih (p.add k.expr "c").1
    exact ⟨hadd.trans hrest, .cons (hpos.mono hrest.grown) hposs⟩

/-- A projection without columns is well named. -/
theorem wellNamed_empty (named : Bool) : (⟨named, []⟩ : Projection).WellNamed :=
  ⟨fun _ _ hc => (List.not_mem_nil hc).elim, List.nodup_nil⟩

end Projection

/-- A column of a source that stands for a column of the subquery in it. -/
def OuterColumn (columns : List OutputColumn) (s s' : Scalar) : Prop :=
  ∃ c ∈ columns, ∃ name, c.aliasName = some name ∧ c.expr = s.asValueForm ∧
    s' = .column subqueryAlias name s.type s.mapping

namespace Draft

/-- The projection of a draft as a subquery, before the keys of its orderings are added. -/
def shapeProjection (d : Draft) : Projection := ((⟨true, []⟩ : Projection).addShape d.shape).1

/-- Where a row of the draft as a subquery holds its shape. -/
def subquerySlots (d : Draft) : List (MemberPath × Slot) :=
  ((⟨true, []⟩ : Projection).addShape d.shape).2

/-- The projection of a draft as a subquery. -/
def subqueryProjection (d : Draft) : Projection := (d.shapeProjection.addKeys d.orderings).1

/-- The draft as a subquery. -/
def subquery (d : Draft) : Select :=
  d.toSelect d.subqueryProjection.columns d.subquerySlots (if d.isLimited then d.orderings else [])

/-- The shape that a new draft gets from the subquery it reads. -/
def outerShape (d : Draft) : Shape :=
  (d.shape.zip d.subquerySlots).map fun ((path, projected), (_, slot)) =>
    (path, outerProjected d.subqueryProjection.columns projected slot)

/-- The orderings that a new draft gets from the subquery it reads. -/
def outerOrderings (d : Draft) : List SortKey :=
  (d.orderings.zip (d.shapeProjection.addKeys d.orderings).2).map fun (key, position) =>
    ⟨outerColumn d.subqueryProjection.columns position, key.ascending⟩

/-- A draft that is pushed down reads its subquery, with the outer shape and the outer orderings. -/
theorem pushDown_eq (d : Draft) :
    d.pushDown = { (default : Draft) with
      tables := [.subquery d.subquery subqueryAlias]
      shape := d.outerShape
      orderings := d.outerOrderings } := rfl

/-- The columns of a subquery are the scalars of the shape and the keys of the orderings. -/
theorem subqueryProjection_grows (d : Draft) :
    (⟨true, []⟩ : Projection).Grows (d.shape.scalars ++ d.orderings.map (·.expr))
      d.subqueryProjection :=
  (Projection.addShape_grows _ _).1.trans (Projection.addKeys_grows _ _).1

/-- The columns of a subquery all have names, no two the same. -/
theorem subqueryProjection_wellNamed (d : Draft) :
    (∀ c ∈ d.subqueryProjection.columns, c.aliasName.isSome) ∧ d.subqueryProjection.names.Nodup := by
  obtain ⟨hall, hnodup⟩ := d.subqueryProjection_grows.wellNamed (Projection.wellNamed_empty true)
  exact ⟨hall d.subqueryProjection_grows.named, hnodup⟩

/-- The slots of a subquery lead to the columns of its shape. -/
theorem subquerySlots_hold (d : Draft) :
    SlotsHold d.subqueryProjection.columns d.shape d.subquerySlots :=
  (Projection.addShape_grows _ _).2.imp fun _ _ h =>
    ⟨h.1, h.2.mono (Projection.addKeys_grows _ _).1.grown⟩

/-- The column at a position that holds a scalar stands for this scalar. -/
theorem outerColumn_of_holdsAt {d : Draft} {position : Nat} {s : Scalar}
    (h : HoldsAt d.subqueryProjection.columns position s) :
    OuterColumn d.subqueryProjection.columns s
      (outerColumn d.subqueryProjection.columns position) := by
  obtain ⟨c, hc, hs⟩ := h
  have hmem := List.mem_of_getElem? hc
  obtain ⟨name, hname⟩ := Option.isSome_iff_exists.1 (d.subqueryProjection_wellNamed.1 c hmem)
  refine ⟨c, hmem, name, hname, hs, ?_⟩
  simp [outerColumn, hc, hname, hs, Scalar.asValueForm, Scalar.inContext]

/-- After a draft has been pushed down, every scalar of its shape is a column for the scalar that was
there before. -/
theorem outerShape_related (d : Draft) :
    Shape.Related (OuterColumn d.subqueryProjection.columns) d.shape d.outerShape := by
  have h := d.subquerySlots_hold
  -- the columns stay whole while the induction goes through the shape and its slots
  unfold outerShape Shape.Related
  unfold SlotsHold at h
  generalize d.shape = shape at h ⊢
  generalize d.subquerySlots = slots at h ⊢
  induction h with
  | nil => exact .nil
  | @cons p q _ _ hpq _ ih =>
    refine .cons ⟨rfl, ?_⟩ ih
    obtain ⟨path, projected⟩ := p
    obtain ⟨path', slot⟩ := q
    cases hpq.2 with
    | scalar h => exact .scalar (outerColumn_of_holdsAt h)
    | @entity e positions h =>
      obtain ⟨name, columns⟩ := e
      refine .entity ?_
      rw [List.forall₂_map_right_iff]
      exact h.imp fun _ _ h => ⟨h.1, outerColumn_of_holdsAt h.2⟩

/-- After a draft has been pushed down, every key is a column for the key that was there before, in the
same direction. -/
theorem outerOrderings_related (d : Draft) :
    List.Forall₂ (fun k k' => OuterColumn d.subqueryProjection.columns k.expr k'.expr ∧
      k'.ascending = k.ascending) d.orderings d.outerOrderings := by
  have h : List.Forall₂ (fun k position => HoldsAt d.subqueryProjection.columns position k.expr)
      d.orderings (d.shapeProjection.addKeys d.orderings).2 :=
    (Projection.addKeys_grows _ _).2
  unfold outerOrderings
  generalize (d.shapeProjection.addKeys d.orderings).2 = positions at h ⊢
  generalize d.orderings = orderings at h ⊢
  induction h with
  | nil => exact .nil
  | cons hk _ ih => exact .cons ⟨outerColumn_of_holdsAt hk, rfl⟩ ih

/-- The projection of a finished draft. -/
def rowProjection (d : Draft) : Projection := ((⟨false, []⟩ : Projection).addShape d.shape).1

/-- Where a row of a finished draft holds its shape. -/
def rowSlots (d : Draft) : List (MemberPath × Slot) :=
  ((⟨false, []⟩ : Projection).addShape d.shape).2

/-- The result of a draft has the columns and slots of its rows and its orderings. -/
theorem finish_eq (d : Draft) :
    d.finish = d.toSelect d.rowProjection.columns d.rowSlots d.orderings := rfl

/-- The columns of a finished draft are the scalars of its shape. -/
theorem rowProjection_grows (d : Draft) :
    (⟨false, []⟩ : Projection).Grows d.shape.scalars d.rowProjection :=
  (Projection.addShape_grows _ _).1

/-- The slots of a row lead to the columns of the shape. -/
theorem rowSlots_hold (d : Draft) : SlotsHold d.rowProjection.columns d.shape d.rowSlots :=
  (Projection.addShape_grows _ _).2

end Draft

end QueryPipeline.Sql
