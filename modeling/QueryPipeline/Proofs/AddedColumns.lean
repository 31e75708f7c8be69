import QueryPipeline.Proofs.Projection

/-!
# Columns that are added one after the other

Whatever a projection gets columns for, properties of entities, paths of a shape or keys of orderings, it gets
them for single scalars one after the other. `Projection.addAll` is this loop, and the others are it with requests
of their own, so what is known of one more column is carried through all of them by a single induction.
-/

set_option autoImplicit false

namespace QueryPipeline.Sql

/-- The positions that a slot leads to, in order. -/
def Slot.positions : Slot → List Nat
  | .scalar position => [position]
  | .entity properties => properties.map (·.2)

/-- The positions that some slots lead to, in order. -/
def slotPositions (slots : List (MemberPath × Slot)) : List Nat := slots.flatMap (·.2.positions)

/-- The scalars of what a path leads to, each with the name that a column for it would like to have. -/
def Projected.requests (path : MemberPath) : Projected → List (Scalar × String)
  | .scalar s => [(s, path.last?.getD "c")]
  | .entity e => e.columns.map Prod.swap

/-- The scalars of a shape, each with the name that a column for it would like to have. -/
def Shape.requests (shape : Shape) : List (Scalar × String) := shape.flatMap fun p => p.2.requests p.1

/-- The keys of orderings, which have no name of their own. -/
def keyRequests (keys : List SortKey) : List (Scalar × String) := keys.map fun k => (k.expr, "c")

/-- The scalars that are asked for under a path are those that the path leads to. -/
theorem Projected.map_fst_requests (path : MemberPath) (projected : Projected) :
    (projected.requests path).map (·.1) = projected.scalars := by
  cases projected with
  | scalar _ => rfl
  | entity e => simp [requests, scalars, Function.comp_def]

/-- The scalars that are asked for are those of the shape, in their order. -/
theorem Shape.map_fst_requests (shape : Shape) : shape.requests.map (·.1) = shape.scalars := by
  simp [requests, scalars, List.map_flatMap, Projected.map_fst_requests]

namespace Projection

/-- A scalar keeps the column that it has already, or it gets the next one because no column projects it. -/
theorem add_cases (p : Projection) (s : Scalar) (preferred : String) :
    (∃ position < p.columns.length, p.add s preferred = (p, position)) ∨
      (∀ c ∈ p.columns, c.expr ≠ s.asValueForm) ∧
        p.add s preferred = (p.withColumn s preferred, p.columns.length) := by
  cases hfind : p.columns.findIdx? (·.expr = s.asValueForm) with
  | some position =>
    obtain ⟨hlt, -, -⟩ := List.findIdx?_eq_some_iff_getElem.1 hfind
    exact .inl ⟨position, hlt, add_of_found hfind preferred⟩
  | none => exact .inr ⟨by simpa using hfind, add_of_new hfind preferred⟩

/-- The projection with columns for some scalars, and their positions. -/
def addAll (p : Projection) : List (Scalar × String) → Projection × List Nat
  | [] => (p, [])
  | (s, preferred) :: rest =>
    let (p, position) := p.add s preferred
    let (p, positions) := p.addAll rest
    (p, position :: positions)

variable (p : Projection)

/-- Where no column is asked for, none is added. -/
@[simp] theorem addAll_nil : p.addAll [] = (p, []) := rfl

/-- Columns are added one after the other, each to the projection that the ones before have left. -/
@[simp] theorem addAll_cons (request : Scalar × String) (rest : List (Scalar × String)) :
    p.addAll (request :: rest) =
      (((p.add request.1 request.2).1.addAll rest).1,
        (p.add request.1 request.2).2 :: ((p.add request.1 request.2).1.addAll rest).2) := rfl

/-- More columns are added to the projection that the first ones have left. -/
theorem addAll_append (requests rest : List (Scalar × String)) :
    p.addAll (requests ++ rest) =
      (((p.addAll requests).1.addAll rest).1,
        (p.addAll requests).2 ++ ((p.addAll requests).1.addAll rest).2) := by
  induction requests generalizing p with
  | nil => rfl
  | cons request requests ih => simp [ih]

/-- The columns of an entity are added one after the other. -/
theorem addColumns_eq (columns : List (String × Scalar)) :
    ((p.addColumns columns).1, (p.addColumns columns).2.map (·.2)) = p.addAll (columns.map Prod.swap) := by
  induction columns generalizing p with
  | nil => rfl
  | cons c rest ih =>
    rw [List.map_cons, addAll_cons, ← ih]
    rfl

/-- What a path leads to is added as the scalars that are asked for under it. -/
theorem addProjected_eq (path : MemberPath) (projected : Projected) :
    ((p.addProjected path projected).1, (p.addProjected path projected).2.positions) =
      p.addAll (projected.requests path) := by
  cases projected with
  | scalar _ => rfl
  | entity e => exact p.addColumns_eq e.columns

/-- A shape gets columns for its scalars one after the other. -/
theorem addShape_eq (shape : Shape) :
    ((p.addShape shape).1, slotPositions (p.addShape shape).2) = p.addAll shape.requests := by
  induction shape generalizing p with
  | nil => rfl
  | cons q rest ih =>
    rw [Shape.requests, List.flatMap_cons, addAll_append, ← addProjected_eq, ← Shape.requests, ← ih]
    rfl

/-- The keys of orderings get columns one after the other. -/
theorem addKeys_eq (keys : List SortKey) : p.addKeys keys = p.addAll (keyRequests keys) := by
  induction keys generalizing p with
  | nil => rfl
  | cons k rest ih =>
    rw [keyRequests, List.map_cons, addAll_cons, ← keyRequests, ← ih]
    rfl

/-- Adding some scalars gains columns for them, and their positions are those of columns for them. -/
theorem addAll_grows (requests : List (Scalar × String)) :
    p.Grows (requests.map (·.1)) (p.addAll requests).1 ∧
      List.Forall₂ (fun request position => HoldsAt (p.addAll requests).1.columns position request.1)
        requests (p.addAll requests).2 := by
  induction requests generalizing p with
  | nil => exact ⟨.refl p, .nil⟩
  | cons request rest ih =>
    obtain ⟨hadd, hpos⟩ := p.add_grows request.1 request.2
    obtain ⟨hrest, hposs⟩ := ih (p.add request.1 request.2).1
    exact ⟨hadd.trans hrest, .cons (hpos.mono hrest.grown) hposs⟩

end Projection

namespace Draft

/-- A finished draft projects the scalars of its shape. -/
theorem rowProjection_eq (d : Draft) :
    (d.rowProjection, slotPositions d.rowSlots) = (⟨false, []⟩ : Projection).addAll d.shape.requests :=
  Projection.addShape_eq _ _

/-- A draft as a subquery projects the scalars of its shape and the keys of its orderings. -/
theorem subqueryProjection_eq (d : Draft) :
    d.subqueryProjection =
      ((⟨true, []⟩ : Projection).addAll (d.shape.requests ++ keyRequests d.orderings)).1 := by
  rw [Projection.addAll_append, ← Projection.addShape_eq, ← Projection.addKeys_eq]
  rfl

end Draft

end QueryPipeline.Sql
