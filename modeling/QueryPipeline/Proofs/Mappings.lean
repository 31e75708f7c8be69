import QueryPipeline.Proofs.Statements

/-!
# Constants know how they are stored

A constant is created without a mapping and gets one when it is combined with something, so no single place
of the compiler makes sure that it has one in the end. The invariant has two stages. A scalar is settled
when all constants and casts in it have a mapping. It is pending when it is settled, or a constant that the
catalog has a mapping for, or the opposite of a pending scalar: then its value takes its mapping from the
scalar itself, and it is settled once it is resolved. Every way to put pending scalars together either
settles them or leaves a pending scalar.
-/

set_option autoImplicit false

namespace QueryPipeline

open Sql

namespace Sql

/-- A constant with a value and a cast have a mapping. -/
structure Scalar.Mapped (s : Scalar) : Prop where
  constant : ∀ value, s.node = .constant value → value.isNull = false → s.mapping.isSome
  cast : ∀ operand, s.node = .cast operand → s.mapping.isSome

/-- All constants with a value and all casts in a scalar have a mapping. -/
def Scalar.AllMapped (_ : List TableSource) (s : Scalar) : Prop := s.All Scalar.Mapped

/-- A part of a scalar is mapped, and so are the scalars of a select that it asks about. -/
structure Scalar.Complete (s : Scalar) : Prop where
  mapped : s.Mapped
  existence : ∀ inner negated, s.node = .existsIn inner negated → inner.AllHold Scalar.AllMapped

/-- All constants and casts in a scalar and in the selects that it asks about have a mapping. -/
def Scalar.Settled (s : Scalar) : Prop := s.All Scalar.Complete

/-- A node that asks nothing of the mapping of its scalar. -/
def Node.needsNothing : Node → Bool
  | .constant _ | .cast _ | .existsIn .. => false
  | _ => true

namespace Scalar

variable {s : Scalar}

/-- A scalar with a mapping is complete when the select that it asks about is. -/
theorem complete_of_mapping {m : TypeMapping} (hmapping : s.mapping = some m)
    (hexistence : ∀ inner negated, s.node = .existsIn inner negated →
      inner.AllHold Scalar.AllMapped) : s.Complete :=
  ⟨⟨fun _ _ _ => by simp [hmapping], fun _ _ => by simp [hmapping]⟩, hexistence⟩

/-- A scalar whose node asks for no mapping is complete. -/
theorem complete_of_node (h : s.node.needsNothing = true) : s.Complete := by
  refine ⟨⟨?_, ?_⟩, ?_⟩
  · intro value hnode
    rw [hnode] at h
    cases h
  · intro operand hnode
    rw [hnode] at h
    cases h
  · intro inner negated hnode
    rw [hnode] at h
    cases h

/-- A context does not matter. -/
theorem Complete.inContext (s : Scalar) (asValue : Bool) (h : s.Complete) :
    (s.inContext asValue).Complete := ⟨⟨h.mapped.constant, h.mapped.cast⟩, h.existence⟩

/-- A scalar whose node asks for no mapping is settled when the scalars in it are. -/
theorem settled_of_node (hnode : s.node.needsNothing = true)
    (h : ∀ part ∈ s.node.parts, part.Complete) : s.Settled :=
  all_iff.2 ⟨complete_of_node hnode, h⟩

/-- The parts of a settled scalar are complete. -/
theorem Settled.parts (h : s.Settled) : ∀ part ∈ s.node.parts, part.Complete := (all_iff.1 h).2

/-- Only node and mapping of a scalar matter. -/
theorem Settled.ofSame {s' : Scalar} (h : s.Settled) (hnode : s'.node = s.node)
    (hmapping : s'.mapping = s.mapping) : s'.Settled := by
  obtain ⟨⟨hconstant, hcast⟩, hexistence⟩ := h.self
  refine All.ofNode h hnode ⟨⟨?_, ?_⟩, ?_⟩
  · rwa [hnode, hmapping]
  · rwa [hnode, hmapping]
  · rwa [hnode]

/-- A null is settled without a mapping. -/
theorem settled_null (type : DataType) : (Scalar.constant .null type).Settled := by
  refine all_of_leaf ⟨⟨?_, nofun⟩, nofun⟩ rfl
  rintro _ ⟨⟩ hnull
  cases hnull

/-- A settled scalar stays settled with a mapping. -/
theorem Settled.withMapping (m : TypeMapping) (h : s.Settled) : (s.withMapping m).Settled :=
  All.withMapping (fun _ hself => complete_of_mapping rfl fun inner negated hnode =>
    hself.existence inner negated (Node.eq_of_withMapping hnode nofun nofun nofun)) s h

end Scalar

/-- A catalog that knows how all kinds are stored that a column may have. -/
def Catalog.IsTotal (catalog : Catalog) : Prop :=
  ∀ kind : DataKind, kind.isStructural = false → (catalog.mapping? kind).isSome

/-- The dialects know how all kinds are stored that a column may have. -/
theorem Dialect.catalog_isTotal (dialect : Dialect) : dialect.catalog.IsTotal := by
  intro kind hkind
  -- only entities and shapes have no store type, and no column holds one
  cases dialect <;> cases kind <;> first | rfl | cases hkind

/-- A scalar is settled, or it is when it gets a mapping, and the catalog has one for its type. -/
inductive Scalar.Pending (catalog : Catalog) : Scalar → Prop
  | settled {s : Scalar} (h : s.Settled) : Pending catalog s
  | constant {value : Literal} {type : DataType} {isCondition asValue : Bool}
      (hkind : (catalog.mapping? type.kind).isSome) :
      Pending catalog ⟨.constant value, type, none, isCondition, asValue⟩
  | negate {operand : Scalar} {type : DataType} {isCondition asValue : Bool}
      (h : Pending catalog operand) (hkind : (catalog.mapping? type.kind).isSome) :
      Pending catalog ⟨.negate operand, type, none, isCondition, asValue⟩

namespace Scalar.Pending

variable {catalog : Catalog} {s : Scalar}

/-- A pending scalar is settled when it gets a mapping. -/
theorem withMapping (m : TypeMapping) (h : s.Pending catalog) : (s.withMapping m).Settled := by
  induction h with
  | settled h => exact h.withMapping m
  | constant _ => exact all_of_leaf (complete_of_mapping rfl nofun) rfl
  | negate _ _ ih => exact settled_of_node rfl ih

/-- A pending scalar is settled when it is resolved. -/
theorem resolve (h : s.Pending catalog) : (catalog.resolve s).Settled := by
  cases h with
  | settled h =>
    unfold Catalog.resolve
    split
    · exact h.withMapping _
    · exact h
  | constant hkind =>
    obtain ⟨m, hm⟩ := Option.isSome_iff_exists.1 hkind
    simp only [Catalog.resolve, hm]
    exact (Pending.constant hkind).withMapping m
  | negate h hkind =>
    obtain ⟨m, hm⟩ := Option.isSome_iff_exists.1 hkind
    simp only [Catalog.resolve, hm]
    exact (Pending.negate h hkind).withMapping m

/-- A scalar that is pending is settled by a mapping from elsewhere or from the catalog. -/
theorem resolveFrom (known : Option TypeMapping) (h : s.Pending catalog) :
    (catalog.resolveFrom known s).Settled := by
  unfold Catalog.resolveFrom
  split
  · exact h.withMapping _
  · exact h.resolve

/-- Only node, mapping and the kind of value of a scalar matter. -/
theorem ofSame {s' : Scalar} (h : s.Pending catalog) (hnode : s'.node = s.node)
    (hmapping : s'.mapping = s.mapping) (hkind : s'.type.kind = s.type.kind) :
    s'.Pending catalog := by
  obtain ⟨node, type, mapping, isCondition, asValue⟩ := s'
  cases h with
  | settled h => exact .settled (h.ofSame hnode hmapping)
  | constant h =>
    cases hnode
    cases hmapping
    exact .constant (hkind ▸ h)
  | negate ho h =>
    cases hnode
    cases hmapping
    exact .negate ho (hkind ▸ h)

/-- The opposite of a pending scalar is pending. -/
theorem negated (h : s.Pending catalog) : s.negated.Pending catalog := by
  have hvalue : s.asValueForm.Pending catalog := h.ofSame rfl rfl rfl
  cases h with
  | settled h => exact .settled (settled_of_node rfl (h.ofSame rfl rfl))
  | constant hkind => exact .negate hvalue hkind
  | negate _ hkind => exact .negate hvalue hkind

/-- What is cast in a pending scalar is pending. -/
theorem withoutCast (h : s.Pending catalog) : s.withoutCast.Pending catalog := by
  cases h with
  | settled h =>
    unfold Scalar.withoutCast
    split
    · rename_i operand hnode
      have hparts := h.parts
      rw [hnode] at hparts
      exact .settled hparts
    · exact .settled h
  | constant hkind => exact .constant hkind
  | negate h hkind => exact .negate h hkind

/-- Two pending scalars with an operator between them are settled, because both are resolved. -/
theorem binary (op : ScalarOp) {left right : Scalar} (hl : left.Pending catalog)
    (hr : right.Pending catalog) : (catalog.binary op left right).Settled := by
  obtain ⟨l, r, hnode⟩ := catalog.binary_node op left right
  refine settled_of_node ?_ (Catalog.parts_binary Complete.inContext op hl.resolveFrom hr.resolveFrom)
  rw [hnode]
  rfl

/-- The negation of a pending scalar is settled. -/
theorem not (h : s.Pending catalog) : (catalog.not s).Settled :=
  settled_of_node rfl (h.resolve.ofSame rfl rfl)

/-- The test for null of a pending scalar is settled. -/
theorem isNull (negated : Bool) (h : s.Pending catalog) : (catalog.isNull s negated).Settled :=
  settled_of_node rfl (h.resolve.ofSame rfl rfl)

/-- A `CASE` of pending scalars is settled. -/
theorem case {test ifTrue ifFalse : Scalar} (ht : test.Pending catalog)
    (hl : ifTrue.Pending catalog) (hr : ifFalse.Pending catalog) :
    (catalog.case (test, ifTrue) [] (some ifFalse)).Settled :=
  settled_of_node rfl
    (Catalog.parts_case Complete.inContext ht.resolve hl.resolveFrom hr.resolveFrom)

/-- A function of pending scalars is settled. -/
theorem function (name : String) {args : List Scalar} (type : DataType) (mapping : Option TypeMapping)
    (h : ∀ a ∈ args, a.Pending catalog) :
    (catalog.functionWith name none args type mapping).Settled :=
  settled_of_node rfl
    (Catalog.parts_functionWith Complete.inContext name type mapping fun a ha => (h a ha).resolve)

/-- A match of pending scalars is settled. -/
theorem like {subject pattern : Scalar} {escape : Option Scalar} (hs : subject.Pending catalog)
    (hp : pattern.Pending catalog) (he : ∀ e ∈ escape, e.Pending catalog) :
    (catalog.like subject pattern escape).Settled :=
  settled_of_node rfl
    (Catalog.parts_like hs.resolveFrom hp.resolveFrom fun e hescape => (he e hescape).resolveFrom)

/-- A pending scalar in a store type is settled. -/
theorem castTo (type : DataType) (m : TypeMapping) (h : s.Pending catalog) :
    ((catalog.resolve s).castTo type m).Settled :=
  all_iff.2 ⟨complete_of_mapping rfl nofun, h.resolve.ofSame rfl rfl⟩

end Scalar.Pending

end Sql

/-- A literal has a kind that a column may have. -/
theorem Literal.type_not_structural (value : Literal) : value.type.kind.isStructural = false := by
  cases value with
  | integer i =>
    simp only [Literal.type]
    split <;> rfl
  | _ => rfl

/-- Pending scalars are put together to pending scalars. -/
theorem pending_closed {catalog : Catalog} (hc : catalog.IsTotal) :
    Closed catalog (·.Pending catalog) where
  constant value := .constant (hc _ value.type_not_structural)
  null type := .settled (Scalar.settled_null type)
  parameter _ _ := .settled (Scalar.settled_of_node rfl nofun)
  fragment _ _ := .settled (Scalar.settled_of_node rfl nofun)
  int i := by
    obtain ⟨m, hm⟩ := Option.isSome_iff_exists.1 (hc .int32 rfl)
    exact .settled (Scalar.all_of_leaf (Scalar.complete_of_mapping hm nofun) rfl)
  withMapping m h := .settled (h.withMapping m)
  resolve h := .settled h.resolve
  inContext _ h := h.ofSame rfl rfl rfl
  asPredicate h := h.ofSame rfl rfl rfl
  retype hkind h := h.ofSame rfl rfl hkind.symm
  binary op _ _ hl hr := .settled (hl.binary op hr)
  not h := .settled h.not
  isNull negated h := .settled (h.isNull negated)
  negated h := h.negated
  case ht hl hr := .settled (ht.case hl hr)
  function name _ type mapping h := .settled (Scalar.Pending.function name type mapping h)
  like hs hp he := .settled (hs.like hp he)
  castTo type m h := .settled (h.castTo type m)
  withoutCast h := h.withoutCast

/-- Operators keep scalars settled. -/
theorem settled_kept {env : Environment} (hc : env.catalog.IsTotal) :
    Kept env Scalar.AllMapped (fun _ s => s.Settled) (fun _ s => s.Pending env.catalog) where
  sound h := fun part hpart => (h part hpart).mapped
  nested h hpart hnode := (h _ hpart).existence _ _ hnode
  weaken h _ := .settled h
  resolve h := h.resolve
  inContext _ h := h.ofSame rfl rfl
  conjunction hl hr :=
    Scalar.settled_of_node rfl (Scalar.parts_binary Scalar.Complete.inContext _ _ _ hl hr)
  not h := (Scalar.Pending.settled h).not
  fragment _ _ _ := .settled (Scalar.settled_of_node rfl nofun)
  function _ _ type h := Scalar.Pending.function _ type _ h
  castTo type m h := h.castTo type m
  int _ i := by
    obtain ⟨m, hm⟩ := Option.isSome_iff_exists.1 (hc .int32 rfl)
    exact Scalar.all_of_leaf (Scalar.complete_of_mapping hm nofun) rfl
  column h := by
    obtain ⟨_, _, _, _, _, rfl⟩ := h
    exact Scalar.settled_of_node rfl nofun
  existence negated h := by
    refine Scalar.all_of_leaf ⟨⟨nofun, nofun⟩, ?_⟩ rfl
    rintro _ _ ⟨⟩
    exact h

/-- The columns of an entity have nothing to settle. -/
theorem Environment.start_settled (env : Environment) (entity : EntityType) :
    (env.startQuery entity).draft.Holds Scalar.AllMapped (fun _ s => s.Settled) :=
  startQuery_holds fun _ _ => Scalar.settled_of_node rfl (List.forall_mem_nil _)

end QueryPipeline
