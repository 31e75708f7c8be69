import QueryPipeline.Proofs.Statements

/-!
# Properties of nodes

Scalars are put together around nodes that are neither columns nor questions about selects. A property that
all of these nodes have says something about columns and questions only, so it is closed, and operators keep
it when they make columns and questions with it.
-/

set_option autoImplicit false

namespace QueryPipeline

open Sql

namespace Sql

/-- A node that is neither a column nor a question about a select. -/
def Node.isFree : Node → Bool
  | .column .. | .existsIn .. => false
  | _ => true

/-- A property says something only about columns and questions about selects. -/
structure OnReferences (N : Node → Prop) : Prop where
  free {n : Node} (h : n.isFree = true) : N n
  withMapping {n : Node} (m : TypeMapping) (h : N n) : N (n.withMapping m)

/-- All nodes of a scalar have a property. -/
abbrev Scalar.AllNodes (N : Node → Prop) (s : Scalar) : Prop := s.All (N ·.node)

namespace OnReferences

variable {N : Node → Prop} (hN : OnReferences N) {s s' : Scalar}

/-- Only the node of a scalar matters. -/
theorem ofNode (h : s.AllNodes N) (hnode : s'.node = s.node) : s'.AllNodes N := by
  refine Scalar.All.ofNode h hnode ?_
  rw [hnode]
  exact h.self

include hN

/-- A scalar with a free node has a property in all nodes when the scalars in it have it. -/
theorem ofFree (hfree : s.node.isFree = true) (h : ∀ part ∈ s.node.parts, N part.node) :
    s.AllNodes N :=
  Scalar.all_iff.2 ⟨hN.free hfree, h⟩

/-- A mapping changes no property of nodes that mappings keep. -/
theorem allNodes_withMapping (m : TypeMapping) (h : s.AllNodes N) : (s.withMapping m).AllNodes N :=
  Scalar.All.withMapping (fun _ hself => hN.withMapping m hself) s h

/-- The mapping of the catalog changes no property of nodes that mappings keep. -/
theorem allNodes_resolve (catalog : Catalog) (h : s.AllNodes N) : (catalog.resolve s).AllNodes N :=
  h.resolve (fun m _ hself => hN.withMapping m hself) catalog

/-- A mapping from elsewhere or from the catalog changes no property of nodes that mappings keep. -/
theorem allNodes_resolveFrom (catalog : Catalog) (known : Option TypeMapping) (h : s.AllNodes N) :
    (catalog.resolveFrom known s).AllNodes N :=
  h.resolveFrom (fun m _ hself => hN.withMapping m hself) catalog known

/-- Scalars with the property in all nodes are put together to such scalars. -/
theorem closed (catalog : Catalog) : Closed catalog (·.AllNodes N) where
  constant _ := hN.ofFree rfl nofun
  null _ := hN.ofFree rfl nofun
  parameter _ _ := hN.ofFree rfl nofun
  fragment _ _ := hN.ofFree rfl nofun
  int _ := hN.ofFree rfl nofun
  withMapping m h := hN.allNodes_withMapping m h
  resolve h := hN.allNodes_resolve catalog h
  inContext _ h := ofNode h rfl
  asPredicate h := ofNode h rfl
  retype _ h := ofNode h rfl
  binary op left right hl hr := by
    obtain ⟨l, r, hnode⟩ := catalog.binary_node op left right
    refine hN.ofFree ?_ (Catalog.parts_binary (fun _ _ h => h) op
      (fun known => hN.allNodes_resolveFrom catalog known hl)
      fun known => hN.allNodes_resolveFrom catalog known hr)
    rw [hnode]
    rfl
  not h := hN.ofFree rfl (ofNode (hN.allNodes_resolve catalog h) rfl)
  isNull _ h := hN.ofFree rfl (ofNode (hN.allNodes_resolve catalog h) rfl)
  negated h := hN.ofFree rfl (ofNode h rfl)
  case ht hl hr := hN.ofFree rfl (Catalog.parts_case (fun _ _ h => h) (hN.allNodes_resolve catalog ht)
    (fun known => hN.allNodes_resolveFrom catalog known hl)
    fun known => hN.allNodes_resolveFrom catalog known hr)
  function name _ type mapping h := hN.ofFree rfl (Catalog.parts_functionWith (fun _ _ h => h) name type
    mapping fun a ha => hN.allNodes_resolve catalog (h a ha))
  like hs hp he := hN.ofFree rfl (Catalog.parts_like
    (fun known => hN.allNodes_resolveFrom catalog known hs)
    (fun known => hN.allNodes_resolveFrom catalog known hp)
    fun e hescape known => hN.allNodes_resolveFrom catalog known (he e hescape))
  castTo _ _ h := hN.ofFree rfl (ofNode (hN.allNodes_resolve catalog h) rfl)
  withoutCast h := by
    unfold Scalar.withoutCast
    split
    · rename_i operand hnode
      have hparts := (Scalar.all_iff.1 h).2
      rw [hnode] at hparts
      exact hparts
    · exact h

end OnReferences

end Sql

/-- Operators keep a property of columns and questions, if it holds of the columns of subqueries and of the
questions that they make. -/
theorem Kept.ofNodes (env : Environment) {g : List TableSource → Scalar → Prop}
    {N : List TableSource → Node → Prop} (hN : ∀ tables, OnReferences (N tables))
    (sound : ∀ {tables s}, Scalar.AllNodes (N tables) s → g tables s)
    (nested : ∀ {tables inner negated}, N tables (.existsIn inner negated) → inner.AllHold g)
    (column : ∀ {d : Draft} {s s' : Scalar}, OuterColumn d.subqueryProjection.columns s s' →
      s'.AllNodes (N [.subquery d.subquery subqueryAlias]))
    (existence : ∀ {inner negated}, inner.AllHold g → N [] (.existsIn inner negated)) :
    Kept env g (fun tables s => s.AllNodes (N tables)) fun tables s => s.AllNodes (N tables) where
  sound := sound
  nested h hpart hnode := by
    have hself : N _ _ := h _ hpart
    rw [hnode] at hself
    exact nested hself
  weaken h _ := h
  resolve h := (hN _).allNodes_resolve env.catalog h
  inContext _ h := OnReferences.ofNode h rfl
  conjunction hl hr := (hN _).ofFree rfl (Scalar.parts_binary (fun _ _ h => h) _ _ _ hl hr)
  not := ((hN _).closed env.catalog).not
  function _ _ type h := ((hN _).closed env.catalog).ofArgs _ type h
  castTo := ((hN _).closed env.catalog).castTo
  int tables i := ((hN tables).closed env.catalog).int i
  fragment tables := ((hN tables).closed env.catalog).fragment
  column := column
  existence negated h := Scalar.all_of_leaf (existence h) rfl

end QueryPipeline
