import QueryPipeline.Sql.Typing

/-!
# Parts of scalars and selects

The parts of a scalar are the scalar itself and all scalars in it, except for those of a select that it
asks about. The selects within a select are the select itself, the sources of its rows and the selects its
scalars ask about, at any depth. What is known of all parts of some scalars is known of all parts of a scalar
that is put together from them.
-/

set_option autoImplicit false

namespace QueryPipeline.Sql

mutual

/-- The scalar and all scalars in it, without those of nested selects. -/
def Scalar.parts : Scalar → List Scalar
  | ⟨node, type, mapping, isCondition, asValue⟩ =>
    ⟨node, type, mapping, isCondition, asValue⟩ :: node.parts

/-- The scalars in a node, without those of nested selects. -/
def Node.parts : Node → List Scalar
  | .column .. | .constant _ | .parameter _ | .existsIn .. | .fragment _ => []
  | .binary _ left right => left.parts ++ right.parts
  | .not operand | .negate operand | .isNull operand _ | .cast operand => operand.parts
  | .function _ _ receiver args => optionParts receiver ++ listParts args
  | .case branches otherwise => branchParts branches ++ optionParts otherwise
  | .like subject pattern escape => subject.parts ++ pattern.parts ++ optionParts escape

/-- The scalars in a scalar that may be missing. -/
def optionParts : Option Scalar → List Scalar
  | none => []
  | some s => s.parts

/-- The scalars in some scalars. -/
def listParts : List Scalar → List Scalar
  | [] => []
  | s :: rest => s.parts ++ listParts rest

/-- The scalars in the branches of a `CASE`. -/
def branchParts : List CaseBranch → List Scalar
  | [] => []
  | ⟨test, result⟩ :: rest => test.parts ++ result.parts ++ branchParts rest

end

/-- The scalars of a select itself. -/
def Select.scalars (s : Select) : List Scalar :=
  s.projection.map (·.expr) ++ s.predicate.toList ++ s.orderings.map (·.expr) ++ s.limit.toList
    ++ s.offset.toList

/-- A select stands within another one. -/
inductive Select.Within (s : Select) : Select → Prop
  | refl : Select.Within s s
  | source {outer inner : Select} {aliasName : String}
      (hsource : TableSource.subquery inner aliasName ∈ outer.tables) (h : Select.Within s inner) :
      Select.Within s outer
  | existence {outer inner : Select} {whole part : Scalar} {negated : Bool}
      (hwhole : whole ∈ outer.scalars) (hpart : part ∈ whole.parts)
      (hnode : part.node = .existsIn inner negated) (h : Select.Within s inner) :
      Select.Within s outer

/-- What stands within a select within another one stands within that one. -/
theorem Select.Within.trans {s s' s'' : Select} (h : s.Within s') (h' : s'.Within s'') :
    s.Within s'' := by
  induction h' with
  | refl => exact h
  | source hsource _ ih => exact .source hsource ih
  | existence hwhole hpart hnode _ ih => exact .existence hwhole hpart hnode ih

/-- The parts of a scalar are itself and those of its node. -/
theorem Scalar.parts_eq (s : Scalar) : s.parts = s :: s.node.parts := by
  cases s
  rfl

/-- The parts of a scalar that may be missing are those of the one that is there. -/
theorem mem_optionParts {part : Scalar} {s : Option Scalar} :
    part ∈ optionParts s ↔ ∃ whole ∈ s, part ∈ whole.parts := by
  cases s <;> simp [optionParts]

/-- The parts of some scalars are the parts of each one. -/
theorem mem_listParts {part : Scalar} {ss : List Scalar} :
    part ∈ listParts ss ↔ ∃ whole ∈ ss, part ∈ whole.parts := by
  induction ss with
  | nil => simp [listParts]
  | cons s rest ih => simp [listParts, ih]

/-- The parts of branches are those of their conditions and their results. -/
theorem mem_branchParts {part : Scalar} {branches : List CaseBranch} :
    part ∈ branchParts branches ↔ ∃ b ∈ branches, part ∈ b.test.parts ∨ part ∈ b.result.parts := by
  induction branches with
  | nil => simp [branchParts]
  | cons b rest ih =>
    obtain ⟨test, result⟩ := b
    simp [branchParts, ih, or_assoc]

/-- A mapping only makes negations, operations and `CASE`s, and these only of nodes of the same form. -/
theorem Node.eq_of_withMapping {m : TypeMapping} {n n' : Node} (h : n.withMapping m = n')
    (hnegate : ∀ operand, n' ≠ .negate operand) (hbinary : ∀ op left right, n' ≠ .binary op left right)
    (hcase : ∀ branches otherwise, n' ≠ .case branches otherwise) : n = n' := by
  cases n with
  | negate _ => exact absurd h.symm (hnegate _)
  | binary _ _ _ =>
    rw [Node.withMapping] at h
    split at h <;> exact absurd h.symm (hbinary _ _ _)
  | case _ _ => exact absurd h.symm (hcase _ _)
  | _ => exact h

/-- The results of branches with a mapping are the results before, with the mapping. -/
theorem map_result_branchesWithMapping (m : TypeMapping) (branches : List CaseBranch) :
    (branchesWithMapping m branches).map (·.result) = branches.map (·.result.withMapping m) := by
  induction branches with
  | nil => rfl
  | cons b rest ih =>
    obtain ⟨test, result⟩ := b
    rw [branchesWithMapping, List.map_cons, List.map_cons, ih]

/-- A scalar that may be missing gets a mapping where it is there. -/
theorem toList_optionWithMapping (m : TypeMapping) (s : Option Scalar) :
    (optionWithMapping m s).toList = s.toList.map (·.withMapping m) := by
  cases s <;> rfl

section Flags

variable (catalog : Catalog) (known : Option TypeMapping) (m : TypeMapping) (s : Scalar)

/-- A mapping does not change the type of a scalar. -/
@[simp] theorem Scalar.type_withMapping : (s.withMapping m).type = s.type := by
  obtain ⟨_, _, _ | _, _, _⟩ := s <;> rfl

/-- A mapping does not change whether a scalar is a condition. -/
@[simp] theorem Scalar.isCondition_withMapping : (s.withMapping m).isCondition = s.isCondition := by
  obtain ⟨_, _, _ | _, _, _⟩ := s <;> rfl

/-- A mapping does not change whether a scalar stands for a value. -/
@[simp] theorem Scalar.asValue_withMapping : (s.withMapping m).asValue = s.asValue := by
  obtain ⟨_, _, _ | _, _, _⟩ := s <;> rfl

/-- The mapping of the catalog does not change the type of a scalar. -/
@[simp] theorem Catalog.type_resolve : (catalog.resolve s).type = s.type := by
  unfold resolve
  split <;> simp

/-- The mapping of the catalog does not change whether a scalar is a condition. -/
@[simp] theorem Catalog.isCondition_resolve : (catalog.resolve s).isCondition = s.isCondition := by
  unfold resolve
  split <;> simp

/-- The mapping of the catalog does not change whether a scalar stands for a value. -/
@[simp] theorem Catalog.asValue_resolve : (catalog.resolve s).asValue = s.asValue := by
  unfold resolve
  split <;> simp

/-- A mapping from elsewhere or from the catalog does not change the type of a scalar. -/
@[simp] theorem Catalog.type_resolveFrom : (catalog.resolveFrom known s).type = s.type := by
  unfold resolveFrom
  split <;> simp

/-- A mapping from elsewhere or from the catalog does not change whether a scalar is a condition. -/
@[simp] theorem Catalog.isCondition_resolveFrom :
    (catalog.resolveFrom known s).isCondition = s.isCondition := by
  unfold resolveFrom
  split <;> simp

/-- A mapping from elsewhere or from the catalog does not change whether a scalar stands for a value. -/
@[simp] theorem Catalog.asValue_resolveFrom : (catalog.resolveFrom known s).asValue = s.asValue := by
  unfold resolveFrom
  split <;> simp

end Flags

/-- A property holds of all parts of a scalar. -/
def Scalar.All (p : Scalar → Prop) (s : Scalar) : Prop := ∀ part ∈ s.parts, p part

namespace Scalar

variable {p : Scalar → Prop}

/-- All parts of a scalar have a property when the scalar itself and the parts of its node have it. -/
theorem all_iff {s : Scalar} : s.All p ↔ p s ∧ ∀ part ∈ s.node.parts, p part := by
  simp [All, s.parts_eq]

/-- The scalar itself is among its parts. -/
theorem All.self {s : Scalar} (h : s.All p) : p s := (all_iff.1 h).1

/-- A scalar with the same node has the same proper parts. -/
theorem All.ofNode {s s' : Scalar} (h : s.All p) (hnode : s'.node = s.node) (hp : p s') :
    s'.All p := by
  rw [all_iff, hnode]
  exact ⟨hp, (all_iff.1 h).2⟩

/-- A scalar without proper parts has a property everywhere when it has it. -/
theorem all_of_leaf {s : Scalar} (hp : p s) (hleaf : s.node.parts = []) : s.All p := by
  rw [all_iff, hleaf]
  exact ⟨hp, List.forall_mem_nil _⟩

/-- A scalar keeps a property when it gets a mapping. -/
def KeptByMapping (p : Scalar → Prop) (m : TypeMapping) : Prop :=
  ∀ s : Scalar, p s → p ⟨s.node.withMapping m, s.type, some m, s.isCondition, s.asValue⟩

variable {m : TypeMapping}

mutual

/-- A property that scalars keep when they get a mapping holds everywhere in the scalar with a mapping when it
holds everywhere in the scalar. -/
theorem All.withMapping (hp : KeptByMapping p m) :
    ∀ s : Scalar, s.All p → (s.withMapping m).All p
  | ⟨_, _, some _, _, _⟩ => id
  | ⟨node, type, none, isCondition, asValue⟩ => fun h =>
    all_iff.2 ⟨hp ⟨node, type, none, isCondition, asValue⟩ h.self,
      parts_withMapping hp node (all_iff.1 h).2⟩

/-- The parts of a node with a mapping have every property of its parts that mappings keep. -/
theorem parts_withMapping (hp : KeptByMapping p m) :
    ∀ n : Node, (∀ part ∈ n.parts, p part) → ∀ part ∈ (n.withMapping m).parts, p part
  | .column _ _ | .constant _ | .parameter _ | .not _ | .isNull _ _ | .function _ _ _ _
  | .existsIn _ _ | .like _ _ _ | .cast _ | .fragment _ => id
  | .negate operand => All.withMapping hp operand
  | .binary op left right => fun h => by
    rw [Node.withMapping]
    split
    · exact h
    · rw [Node.parts, List.forall_mem_append] at h ⊢
      exact ⟨All.withMapping hp left h.1, All.withMapping hp right h.2⟩
  | .case branches otherwise => fun h => by
    rw [Node.withMapping]
    rw [Node.parts, List.forall_mem_append] at h ⊢
    exact ⟨branchParts_withMapping hp branches h.1, optionParts_withMapping hp otherwise h.2⟩

/-- The parts of branches with a mapping have every property of their parts that mappings keep. -/
theorem branchParts_withMapping (hp : KeptByMapping p m) :
    ∀ bs : List CaseBranch, (∀ part ∈ branchParts bs, p part) →
      ∀ part ∈ branchParts (branchesWithMapping m bs), p part
  | [] => id
  | ⟨test, result⟩ :: rest => by
    rw [branchesWithMapping, branchParts, branchParts]
    simp only [List.forall_mem_append]
    exact fun h => ⟨⟨h.1.1, All.withMapping hp result h.1.2⟩, branchParts_withMapping hp rest h.2⟩

/-- The parts of a scalar that may be missing have, with a mapping, every property that mappings keep. -/
theorem optionParts_withMapping (hp : KeptByMapping p m) :
    ∀ s : Option Scalar, (∀ part ∈ optionParts s, p part) →
      ∀ part ∈ optionParts (optionWithMapping m s), p part
  | none => id
  | some s => All.withMapping hp s

end

/-- The parts of a scalar with the mapping of the catalog have every property that mappings keep. -/
theorem All.resolve (hp : ∀ m, KeptByMapping p m) {s : Scalar} (h : s.All p) (catalog : Catalog) :
    (catalog.resolve s).All p := by
  unfold Catalog.resolve
  split
  · exact All.withMapping (hp _) s h
  · exact h

/-- The parts of a scalar with a mapping from elsewhere or from the catalog have every property that mappings
keep. -/
theorem All.resolveFrom (hp : ∀ m, KeptByMapping p m) {s : Scalar} (h : s.All p) (catalog : Catalog)
    (known : Option TypeMapping) : (catalog.resolveFrom known s).All p := by
  unfold Catalog.resolveFrom
  split
  · exact All.withMapping (hp _) s h
  · exact h.resolve hp catalog

end Scalar

/-- An operation is an operation on its operands with their mappings, whatever these are. -/
theorem Catalog.binary_node (catalog : Catalog) (op : ScalarOp) (left right : Scalar) :
    ∃ l r, (catalog.binary op left right).node = .binary op l r := by
  unfold Catalog.binary
  split
  · exact ⟨_, _, rfl⟩
  · dsimp only
    split
    · exact ⟨_, _, rfl⟩
    · exact ⟨_, _, rfl⟩

/-- An operation is one on the operands with their mappings, and a comparison is true or false. -/
theorem Catalog.exists_binary (catalog : Catalog) (op : ScalarOp) (left right : Scalar) :
    ∃ known type mapping, catalog.binary op left right = Scalar.binary op
        (catalog.resolveFrom known left) (catalog.resolveFrom known right) type mapping ∧
      ((op.isComparison || op.isLogical) = true → type.kind = .bool) := by
  unfold Catalog.binary
  split
  · exact ⟨none, _, _, rfl, fun _ => rfl⟩
  · rename_i hlogical
    dsimp only
    split
    · exact ⟨_, _, _, rfl, fun _ => rfl⟩
    · rename_i hcomparison
      refine ⟨_, _, _, rfl, fun hop => ?_⟩
      rcases Bool.or_eq_true_iff.1 hop with hop | hop
      · exact absurd hop hcomparison
      · exact absurd hop hlogical

section Combination

variable {catalog : Catalog} {p : Scalar → Prop}
  (hp : ∀ (s : Scalar) (asValue : Bool), p s → p (s.inContext asValue))
include hp

/-- In another position all parts of a scalar have the properties that positions keep. -/
theorem Scalar.All.inContext {s : Scalar} (h : s.All p) (asValue : Bool) :
    (s.inContext asValue).All p := h.ofNode rfl (hp s asValue h.self)

/-- The parts of an operation have a property when those of its operands do. -/
theorem Scalar.parts_binary (op : ScalarOp) {left right : Scalar} (type : DataType)
    (mapping : Option TypeMapping) (hl : left.All p) (hr : right.All p) :
    ∀ part ∈ (Scalar.binary op left right type mapping).node.parts, p part := by
  simp only [Scalar.binary, natural, Node.parts, List.forall_mem_append]
  exact ⟨hl.inContext hp _, hr.inContext hp _⟩

namespace Catalog

/-- What is known of the operands with their mappings is known of the parts of an operation. -/
theorem parts_binary (op : ScalarOp) {left right : Scalar}
    (hl : ∀ known, (catalog.resolveFrom known left).All p)
    (hr : ∀ known, (catalog.resolveFrom known right).All p) :
    ∀ part ∈ (catalog.binary op left right).node.parts, p part := by
  unfold Catalog.binary
  split
  · exact Scalar.parts_binary hp op _ _ (hl none) (hr none)
  · dsimp only
    split
    · exact Scalar.parts_binary hp op _ _ (hl _) (hr _)
    · exact Scalar.parts_binary hp op _ _ (hl _) (hr _)

/-- The parts of a choice have a property when those of its condition and of its two scalars do. -/
theorem parts_case {test ifTrue ifFalse : Scalar} (ht : (catalog.resolve test).All p)
    (hl : ∀ known, (catalog.resolveFrom known ifTrue).All p)
    (hr : ∀ known, (catalog.resolveFrom known ifFalse).All p) :
    ∀ part ∈ (catalog.case (test, ifTrue) [] (some ifFalse)).node.parts, p part := by
  simp only [Catalog.case, Scalar.natural, Node.parts, branchParts, optionParts, List.map_cons,
    List.map_nil, Option.map_some, List.append_nil, List.forall_mem_append]
  exact ⟨⟨ht.inContext hp _, (hl _).inContext hp _⟩, (hr _).inContext hp _⟩

/-- The parts of a call have a property when those of its arguments do. -/
theorem parts_functionWith (name : String) {args : List Scalar} (type : DataType)
    (mapping : Option TypeMapping) (h : ∀ a ∈ args, (catalog.resolve a).All p) :
    ∀ part ∈ (catalog.functionWith name none args type mapping).node.parts, p part := by
  simp only [Catalog.functionWith, Scalar.natural, Node.parts, optionParts, List.nil_append]
  intro part hpart
  obtain ⟨whole, hwhole, hpart⟩ := mem_listParts.1 hpart
  obtain ⟨a, ha, rfl⟩ := List.mem_map.1 hwhole
  exact (h a ha).inContext hp true part hpart

omit hp in
/-- The parts of a match with a pattern have a property when those of its three operands do. -/
theorem parts_like {subject pattern : Scalar} {escape : Option Scalar}
    (hs : ∀ known, (catalog.resolveFrom known subject).All p)
    (hpattern : ∀ known, (catalog.resolveFrom known pattern).All p)
    (he : ∀ e ∈ escape, ∀ known, (catalog.resolveFrom known e).All p) :
    ∀ part ∈ (catalog.like subject pattern escape).node.parts, p part := by
  simp only [Catalog.like, Catalog.condition, Scalar.natural, Node.parts, List.forall_mem_append]
  refine ⟨⟨hs _, hpattern _⟩, ?_⟩
  intro part hpart
  obtain ⟨whole, hwhole, hpart⟩ := mem_optionParts.1 hpart
  obtain ⟨e, hescape, rfl⟩ := Option.map_eq_some_iff.1 hwhole
  exact he e hescape _ part hpart

end Catalog

end Combination

end QueryPipeline.Sql
