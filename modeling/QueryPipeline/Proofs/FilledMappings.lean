import Mathlib.Data.List.Forall2
import QueryPipeline.Proofs.Parts

/-!
# Mappings that are filled in

Scalars learn how they are stored from what they are combined with and from the catalog. What they learn only fills
gaps: a scalar before and after is the same but for its mappings, and each mapping that was known before, at
whatever depth, is the same afterwards. What has a mapping learns nothing more, and what the catalog has no mapping
for learns none from it.
-/

set_option autoImplicit false

namespace QueryPipeline

namespace Sql

mutual

/-- The scalar with no mapping known at any depth, outside of the selects it asks about. -/
def Scalar.unmapped : Scalar → Scalar
  | ⟨node, type, _, isCondition, asValue⟩ => ⟨node.unmapped, type, none, isCondition, asValue⟩

/-- The node with no mapping known in its parts. -/
def Node.unmapped : Node → Node
  | .binary op left right => .binary op left.unmapped right.unmapped
  | .not operand => .not operand.unmapped
  | .negate operand => .negate operand.unmapped
  | .isNull operand negated => .isNull operand.unmapped negated
  | .function name schema receiver args =>
    .function name schema (unmappedOption receiver) (unmappedScalars args)
  | .case branches otherwise => .case (unmappedBranches branches) (unmappedOption otherwise)
  | .like subject pattern escape => .like subject.unmapped pattern.unmapped (unmappedOption escape)
  | .cast operand => .cast operand.unmapped
  | node => node

/-- The scalar, if there is one, with no mapping known. -/
def unmappedOption : Option Scalar → Option Scalar
  | none => none
  | some s => some s.unmapped

/-- The scalars with no mapping known. -/
def unmappedScalars : List Scalar → List Scalar
  | [] => []
  | s :: rest => s.unmapped :: unmappedScalars rest

/-- The branches of a `CASE` with no mapping known. -/
def unmappedBranches : List CaseBranch → List CaseBranch
  | [] => []
  | ⟨test, result⟩ :: rest => ⟨test.unmapped, result.unmapped⟩ :: unmappedBranches rest

end

/-- A mapping that the first scalar has is the mapping of the second one. -/
def Scalar.KeepsMapping (s s' : Scalar) : Prop := ∀ m ∈ s.mapping, s'.mapping = some m

/-- The second scalar is the first one with gaps filled in: without their mappings they are the same, node by node,
and each mapping that the first one has anywhere, the second one has there too. -/
structure Scalar.Fills (s s' : Scalar) : Prop where
  same : s'.unmapped = s.unmapped
  kept : List.Forall₂ KeepsMapping s.parts s'.parts

section Filling

variable (m : TypeMapping)

/-- Scalars keep their own mappings. -/
theorem keepsMapping_self (parts : List Scalar) : List.Forall₂ Scalar.KeepsMapping parts parts :=
  List.forall₂_same.2 fun _ _ _ h => h

/-- A scalar fills no gap of itself. -/
theorem Scalar.Fills.refl (s : Scalar) : s.Fills s := ⟨rfl, keepsMapping_self s.parts⟩

mutual

/-- A mapping that is filled in is the only thing that changes. -/
theorem Scalar.unmapped_withMapping : ∀ s : Scalar, (s.withMapping m).unmapped = s.unmapped
  | ⟨_, _, some _, _, _⟩ => rfl
  | ⟨node, _, none, _, _⟩ => by
    rw [Scalar.withMapping, Scalar.unmapped, Scalar.unmapped, Node.unmapped_withMapping node]

/-- In a node, mappings that are filled in are the only thing that changes. -/
theorem Node.unmapped_withMapping : ∀ n : Node, (n.withMapping m).unmapped = n.unmapped
  | .column _ _ | .constant _ | .parameter _ | .not _ | .isNull _ _ | .function _ _ _ _
  | .existsIn _ _ | .like _ _ _ | .cast _ | .fragment _ => rfl
  | .negate operand => by
    rw [Node.withMapping, Node.unmapped, Node.unmapped, Scalar.unmapped_withMapping operand]
  | .binary op left right => by
    rw [Node.withMapping]
    split
    · rfl
    · rw [Node.unmapped, Node.unmapped, Scalar.unmapped_withMapping left, Scalar.unmapped_withMapping right]
  | .case branches otherwise => by
    rw [Node.withMapping, Node.unmapped, Node.unmapped, unmappedBranches_withMapping branches,
      unmappedOption_withMapping otherwise]

/-- In the branches of a `CASE`, mappings that are filled in are the only thing that changes. -/
theorem unmappedBranches_withMapping : ∀ branches : List CaseBranch,
    unmappedBranches (branchesWithMapping m branches) = unmappedBranches branches
  | [] => rfl
  | ⟨_, result⟩ :: rest => by
    rw [branchesWithMapping, unmappedBranches, unmappedBranches, Scalar.unmapped_withMapping result,
      unmappedBranches_withMapping rest]

/-- In a scalar that may be missing, mappings that are filled in are the only thing that changes. -/
theorem unmappedOption_withMapping : ∀ s : Option Scalar,
    unmappedOption (optionWithMapping m s) = unmappedOption s
  | none => rfl
  | some s => by
    rw [optionWithMapping, unmappedOption, unmappedOption, Scalar.unmapped_withMapping s]

end

mutual

/-- Only where a scalar has no mapping it gets one. -/
theorem Scalar.kept_withMapping : ∀ s : Scalar,
    List.Forall₂ Scalar.KeepsMapping s.parts (s.withMapping m).parts
  | ⟨_, _, some _, _, _⟩ => keepsMapping_self _
  | ⟨node, _, none, _, _⟩ => .cons nofun (Node.kept_withMapping node)

/-- Only where the parts of a node have no mapping they get one. -/
theorem Node.kept_withMapping : ∀ n : Node,
    List.Forall₂ Scalar.KeepsMapping n.parts (n.withMapping m).parts
  | .column _ _ | .constant _ | .parameter _ | .not _ | .isNull _ _ | .function _ _ _ _
  | .existsIn _ _ | .like _ _ _ | .cast _ | .fragment _ => keepsMapping_self _
  | .negate operand => Scalar.kept_withMapping operand
  | .binary op left right => by
    rw [Node.withMapping]
    split
    · exact keepsMapping_self _
    · exact List.rel_append (Scalar.kept_withMapping left) (Scalar.kept_withMapping right)
  | .case branches otherwise =>
    List.rel_append (branches_kept_withMapping branches) (option_kept_withMapping otherwise)

/-- Only where the results of a `CASE` have no mapping they get one. -/
theorem branches_kept_withMapping : ∀ branches : List CaseBranch,
    List.Forall₂ Scalar.KeepsMapping (branchParts branches) (branchParts (branchesWithMapping m branches))
  | [] => .nil
  | ⟨test, result⟩ :: rest =>
    -- the tests of a `CASE` get no mapping from its results
    List.rel_append (List.rel_append (keepsMapping_self test.parts) (Scalar.kept_withMapping result))
      (branches_kept_withMapping rest)

/-- Only where a scalar that may be missing has no mapping it gets one. -/
theorem option_kept_withMapping : ∀ s : Option Scalar,
    List.Forall₂ Scalar.KeepsMapping (optionParts s) (optionParts (optionWithMapping m s))
  | none => .nil
  | some s => Scalar.kept_withMapping s

end

/-- A mapping that is given only fills gaps. -/
theorem Scalar.fills_withMapping (s : Scalar) : s.Fills (s.withMapping m) :=
  ⟨s.unmapped_withMapping m, s.kept_withMapping m⟩

/-- The mapping of the catalog only fills gaps. -/
theorem Catalog.fills_resolve (catalog : Catalog) (s : Scalar) : s.Fills (catalog.resolve s) := by
  unfold resolve
  split
  · exact s.fills_withMapping _
  · exact .refl s

/-- A mapping from elsewhere or from the catalog only fills gaps. -/
theorem Catalog.fills_resolveFrom (catalog : Catalog) (known : Option TypeMapping) (s : Scalar) :
    s.Fills (catalog.resolveFrom known s) := by
  unfold resolveFrom
  split
  · exact s.fills_withMapping _
  · exact catalog.fills_resolve s

/-- A mapping that is given becomes the one of a scalar that had none. -/
theorem Scalar.mapping_withMapping (s : Scalar) : (s.withMapping m).mapping = some (s.mapping.getD m) := by
  obtain ⟨_, _, _ | _, _, _⟩ := s <;> rfl

/-- A scalar with a mapping learns no other one. -/
theorem Scalar.withMapping_of_mapping {s : Scalar} {known : TypeMapping} (h : s.mapping = some known) :
    s.withMapping m = s := by
  obtain ⟨_, _, _ | _, _, _⟩ := s
  · cases h
  · rfl

end Filling

namespace Catalog

variable (catalog : Catalog)

/-- A scalar that is resolved has its own mapping or else the one of the catalog for its type. -/
theorem mapping_resolve (s : Scalar) :
    (catalog.resolve s).mapping = s.mapping.or (catalog.mapping? s.type.kind) := by
  obtain ⟨node, type, _ | known, isCondition, asValue⟩ := s
  · cases h : catalog.mapping? type.kind <;> simp [resolve, h, Scalar.withMapping]
  · rfl

/-- A scalar that is resolved is not resolved any further. -/
theorem resolve_resolve (s : Scalar) : catalog.resolve (catalog.resolve s) = catalog.resolve s := by
  obtain ⟨node, type, _ | known, isCondition, asValue⟩ := s
  · cases h : catalog.mapping? type.kind with
    | none =>
      have hresolve : catalog.resolve ⟨node, type, none, isCondition, asValue⟩ =
          ⟨node, type, none, isCondition, asValue⟩ := by simp [resolve, h]
      rw [hresolve, hresolve]
    | some m => simp [resolve, h, Scalar.withMapping]
  · rfl

/-- A mapping that is known from elsewhere goes before the one of the catalog, and the own one before both. -/
theorem mapping_resolveFrom (known : Option TypeMapping) (s : Scalar) :
    (catalog.resolveFrom known s).mapping = s.mapping.or (known.or (catalog.mapping? s.type.kind)) := by
  cases known with
  | none => rw [resolveFrom, Option.none_or, mapping_resolve]
  | some m => rw [resolveFrom, Scalar.mapping_withMapping, Option.some_or, Option.or_some]

/-- A scalar that has got a mapping from elsewhere or from the catalog is not resolved any further. -/
theorem resolve_resolveFrom (known : Option TypeMapping) (s : Scalar) :
    catalog.resolve (catalog.resolveFrom known s) = catalog.resolveFrom known s := by
  cases known with
  | none => exact catalog.resolve_resolve s
  | some m =>
    have hmapping : (catalog.resolveFrom (some m) s).mapping = some (s.mapping.getD m) := s.mapping_withMapping m
    rw [resolve, hmapping]

end Catalog

end Sql

open Sql

/-- What is inferred about how scalars are stored only fills gaps. A scalar with a mapping that is given has a
mapping, its own one if it had one; it is the scalar with gaps filled in, and a second mapping leaves it as it is.
A scalar with the mapping of the catalog for its type is the scalar with gaps filled in as well, and so are scalars
that share a mapping, one for each and in their order. At its root each has its own mapping, or else the first one
that is known among those that share one, or else the one of the catalog; to resolve them once more changes
nothing. -/
theorem mappings_only_filled (catalog : Catalog) (m m' : TypeMapping) (s : Scalar) (ss : List Scalar) :
    (∃ s', s.withMapping? (some m) = .ok s' ∧ s'.mapping = some (s.mapping.getD m) ∧ s.Fills s' ∧
      s'.withMapping? (some m') = .ok s') ∧
    (s.Fills (catalog.resolve s) ∧ (catalog.resolve s).mapping = s.mapping.or (catalog.mapping? s.type.kind) ∧
      catalog.resolve (catalog.resolve s) = catalog.resolve s) ∧
    List.Forall₂ (fun s s' => s.Fills s' ∧
      s'.mapping = s.mapping.or ((knownMapping? ss).or (catalog.mapping? s.type.kind)) ∧
      catalog.resolve s' = s') ss (catalog.unify ss) := by
  have hmapping := s.mapping_withMapping m
  refine ⟨⟨s.withMapping m, rfl, hmapping, s.fills_withMapping m, ?_⟩,
    ⟨catalog.fills_resolve s, catalog.mapping_resolve s, catalog.resolve_resolve s⟩, ?_⟩
  · rw [Scalar.withMapping?, Scalar.withMapping_of_mapping m' hmapping]
  · rw [Catalog.unify, List.forall₂_map_right_iff, List.forall₂_same]
    exact fun s _ => ⟨catalog.fills_resolveFrom _ s, catalog.mapping_resolveFrom _ s,
      catalog.resolve_resolveFrom _ s⟩

end QueryPipeline
