import QueryPipeline.Proofs.Nesting
import QueryPipeline.Sql.Rendering

/-!
# Parameters of a select

The parameters of a select are listed with all their occurrences, clause by clause in the order in which the
dialect writes the clauses, and with those of nested selects where these stand. A parameter is among them just
when it is a node of the select or of a select within it.
-/

set_option autoImplicit false

namespace QueryPipeline.Sql

mutual

/-- The parameters of a scalar, as often as they occur. -/
def Scalar.parameters (style : NameStyle) : Scalar → List CommandParameter
  | ⟨node, type, mapping, _, _⟩ => node.parameters style type mapping

/-- The parameters of a node in the store type of the node. -/
def Node.parameters (style : NameStyle) (type : DataType) (mapping : Option TypeMapping) :
    Node → List CommandParameter
  | .column .. | .constant _ | .fragment _ => []
  | .parameter name => [⟨name, style.placeholder name, mapping, type.nullable⟩]
  | .binary _ left right => left.parameters style ++ right.parameters style
  | .not operand | .negate operand | .isNull operand _ | .cast operand => operand.parameters style
  | .function _ _ receiver args => optionParameters style receiver ++ listParameters style args
  | .case branches otherwise => branchParameters style branches ++ optionParameters style otherwise
  | .existsIn subquery _ => subquery.parameters style
  | .like subject pattern escape =>
    subject.parameters style ++ pattern.parameters style ++ optionParameters style escape

/-- The parameters of a scalar that may be missing. -/
def optionParameters (style : NameStyle) : Option Scalar → List CommandParameter
  | none => []
  | some s => s.parameters style

/-- The parameters of some scalars. -/
def listParameters (style : NameStyle) : List Scalar → List CommandParameter
  | [] => []
  | s :: rest => s.parameters style ++ listParameters style rest

/-- The parameters of the branches of a `CASE`. -/
def branchParameters (style : NameStyle) : List CaseBranch → List CommandParameter
  | [] => []
  | ⟨test, result⟩ :: rest =>
    test.parameters style ++ result.parameters style ++ branchParameters style rest

/-- The parameters of a select. A limit comes first where it is written as `TOP`; otherwise it comes last, or
before the offset where the dialect writes it so. -/
def Select.parameters (style : NameStyle) : Select → List CommandParameter
  | ⟨tables, projection, _, predicate, orderings, limit, offset, _⟩ =>
    let most := optionParameters style limit
    let skipped := optionParameters style offset
    let isTop := style.dialect.pagination = .top ∧ offset.isNone
    (if isTop then most else []) ++ columnParameters style projection ++ tableParameters style tables
      ++ optionParameters style predicate ++ keyParameters style orderings
      ++ (if isTop then []
        else if style.dialect.pagination = .limitOffset then most ++ skipped
        else skipped ++ most)

/-- The parameters of projected columns. -/
def columnParameters (style : NameStyle) : List OutputColumn → List CommandParameter
  | [] => []
  | ⟨s, _⟩ :: rest => s.parameters style ++ columnParameters style rest

/-- The parameters of sources of rows. -/
def tableParameters (style : NameStyle) : List TableSource → List CommandParameter
  | [] => []
  | .table .. :: rest => tableParameters style rest
  | .subquery select _ :: rest => select.parameters style ++ tableParameters style rest

/-- The parameters of the keys of an ordering. -/
def keyParameters (style : NameStyle) : List SortKey → List CommandParameter
  | [] => []
  | ⟨s, _⟩ :: rest => s.parameters style ++ keyParameters style rest

end

/-- A scalar is a parameter, which a command lists with the store type of the scalar. -/
def Scalar.IsParameter (style : NameStyle) (p : CommandParameter) (s : Scalar) : Prop :=
  s.node = .parameter p.name ∧
    p = ⟨p.name, style.placeholder p.name, s.mapping, s.type.nullable⟩

/-- A parameter is a node of a select, or of a select within it. -/
def Select.HasParameter (style : NameStyle) (p : CommandParameter) (s : Select) : Prop :=
  ∃ inner : Select, inner.Within s ∧
    ∃ whole ∈ inner.scalars, ∃ part ∈ whole.parts, part.IsParameter style p

/-- A scalar is a parameter, or it asks about a select that has it. -/
def Scalar.Mentions (style : NameStyle) (p : CommandParameter) (s : Scalar) : Prop :=
  s.IsParameter style p ∨ ∃ inner negated, s.node = .existsIn inner negated ∧ inner.HasParameter style p

section Membership

variable {style : NameStyle} {p : CommandParameter}

/-- The parameters of a select are those that its scalars mention and those of its sources. -/
theorem Select.hasParameter_iff {s : Select} : s.HasParameter style p ↔
    (∃ whole ∈ s.scalars, ∃ part ∈ whole.parts, part.Mentions style p) ∨
      ∃ inner aliasName, TableSource.subquery inner aliasName ∈ s.tables ∧ inner.HasParameter style p := by
  constructor
  · rintro ⟨inner, hinner, hp⟩
    cases hinner with
    | refl =>
      obtain ⟨whole, hwhole, part, hpart, hp⟩ := hp
      exact .inl ⟨whole, hwhole, part, hpart, .inl hp⟩
    | source hsource h => exact .inr ⟨_, _, hsource, inner, h, hp⟩
    | existence hwhole hpart hnode h =>
      exact .inl ⟨_, hwhole, _, hpart, .inr ⟨_, _, hnode, inner, h, hp⟩⟩
  · rintro (⟨whole, hwhole, part, hpart, hp | ⟨inner, negated, hnode, i, hi, hp⟩⟩ |
      ⟨inner, aliasName, hsource, i, hi, hp⟩)
    · exact ⟨s, .refl, whole, hwhole, part, hpart, hp⟩
    · exact ⟨i, .existence hwhole hpart hnode hi, hp⟩
    · exact ⟨i, .source hsource hi, hp⟩

/-- The clauses of a select have its parameters, in whatever order they are written. -/
theorem Select.mem_parameters_iff (s : Select) : p ∈ s.parameters style ↔
    (p ∈ columnParameters style s.projection ∨ p ∈ optionParameters style s.predicate ∨
      p ∈ keyParameters style s.orderings ∨ p ∈ optionParameters style s.limit ∨
      p ∈ optionParameters style s.offset) ∨ p ∈ tableParameters style s.tables := by
  obtain ⟨tables, projection, _, predicate, orderings, limit, offset, _⟩ := s
  simp only [Select.parameters, List.mem_append]
  by_cases htop : style.dialect.pagination = .top ∧ offset.isNone
  · have hnone : optionParameters style offset = [] := by
      rw [Option.isNone_iff_eq_none.1 htop.2, optionParameters]
    simp only [if_pos htop, hnone, List.not_mem_nil]
    tauto
  · have hpaging : p ∈ (if style.dialect.pagination = .limitOffset then
          optionParameters style limit ++ optionParameters style offset
        else optionParameters style offset ++ optionParameters style limit) ↔
        p ∈ optionParameters style limit ∨ p ∈ optionParameters style offset := by
      split <;> simp [or_comm]
    simp only [if_neg htop, hpaging, List.not_mem_nil]
    tauto

/-- Some scalar in one that may be missing has a property when the one that is there has such a part. -/
theorem exists_mem_optionParts {s : Option Scalar} {P : Scalar → Prop} :
    (∃ part ∈ optionParts s, P part) ↔ ∃ whole ∈ s, ∃ part ∈ whole.parts, P part := by
  cases s <;> simp [optionParts]

mutual

/-- The parameters of a scalar are those that its parts mention. -/
theorem Scalar.mem_parameters : ∀ s : Scalar,
    p ∈ s.parameters style ↔ ∃ part ∈ s.parts, part.Mentions style p
  | ⟨node, type, mapping, isCondition, asValue⟩ => by
    rw [Scalar.parameters, Scalar.parts, Node.mem_parameters node type mapping isCondition asValue]
    simp only [List.mem_cons, exists_eq_or_imp]

/-- The parameters of a node are those that the scalar or one of its parts mentions. -/
theorem Node.mem_parameters : ∀ (n : Node) (type : DataType) (mapping : Option TypeMapping)
    (isCondition asValue : Bool), p ∈ n.parameters style type mapping ↔
      Scalar.Mentions style p ⟨n, type, mapping, isCondition, asValue⟩ ∨
        ∃ part ∈ n.parts, part.Mentions style p
  | .column _ _, _, _, _, _ | .constant _, _, _, _, _ | .fragment _, _, _, _, _ => by
    simp [Node.parameters, Node.parts, Scalar.Mentions, Scalar.IsParameter]
  | .parameter name, type, mapping, _, _ => by
    simp only [Node.parameters, Node.parts, Scalar.Mentions, Scalar.IsParameter, List.mem_singleton,
      Node.parameter.injEq, reduceCtorEq, false_and, exists_false, or_false, List.not_mem_nil]
    constructor
    · rintro rfl
      exact ⟨rfl, rfl⟩
    · rintro ⟨rfl, hp⟩
      exact hp
  | .binary _ left right, _, _, _, _ => by
    simp [Node.parameters, Node.parts, Scalar.Mentions, Scalar.IsParameter, left.mem_parameters,
      right.mem_parameters, or_and_right, exists_or]
  | .not operand, _, _, _, _ | .negate operand, _, _, _, _ | .isNull operand _, _, _, _, _
  | .cast operand, _, _, _, _ => by
    simp [Node.parameters, Node.parts, Scalar.Mentions, Scalar.IsParameter, operand.mem_parameters]
  | .function _ _ receiver args, _, _, _, _ => by
    simp [Node.parameters, Node.parts, Scalar.Mentions, Scalar.IsParameter,
      mem_optionParameters receiver, mem_listParameters args, or_and_right, exists_or]
  | .case branches otherwise, _, _, _, _ => by
    simp [Node.parameters, Node.parts, Scalar.Mentions, Scalar.IsParameter,
      mem_branchParameters branches, mem_optionParameters otherwise, or_and_right, exists_or]
  | .existsIn subquery negated, _, _, _, _ => by
    simp [Node.parameters, Node.parts, Scalar.Mentions, Scalar.IsParameter, subquery.mem_parameters]
  | .like subject pattern escape, _, _, _, _ => by
    simp [Node.parameters, Node.parts, Scalar.Mentions, Scalar.IsParameter, subject.mem_parameters,
      pattern.mem_parameters, mem_optionParameters escape, or_and_right, exists_or]

/-- The parameters of a scalar that may be missing are those that one of its parts mentions. -/
theorem mem_optionParameters : ∀ s : Option Scalar,
    p ∈ optionParameters style s ↔ ∃ part ∈ optionParts s, part.Mentions style p
  | none => by simp [optionParameters, optionParts]
  | some s => s.mem_parameters

/-- The parameters of some scalars are those that one of their parts mentions. -/
theorem mem_listParameters : ∀ ss : List Scalar,
    p ∈ listParameters style ss ↔ ∃ part ∈ listParts ss, part.Mentions style p
  | [] => by simp [listParameters, listParts]
  | s :: rest => by
    simp [listParameters, listParts, s.mem_parameters, mem_listParameters rest, or_and_right, exists_or]

/-- The parameters of the branches of a `CASE` are those that one of their parts mentions. -/
theorem mem_branchParameters : ∀ branches : List CaseBranch,
    p ∈ branchParameters style branches ↔ ∃ part ∈ branchParts branches, part.Mentions style p
  | [] => by simp [branchParameters, branchParts]
  | ⟨test, result⟩ :: rest => by
    simp [branchParameters, branchParts, test.mem_parameters, result.mem_parameters,
      mem_branchParameters rest, or_and_right, exists_or]

/-- The parameters of a select are the nodes of the select and of the selects within it. -/
theorem Select.mem_parameters : ∀ s : Select, p ∈ s.parameters style ↔ s.HasParameter style p
  | ⟨tables, projection, slots, predicate, orderings, limit, offset, distinct⟩ => by
    rw [Select.mem_parameters_iff, mem_columnParameters projection, mem_tableParameters tables,
      mem_keyParameters orderings, mem_optionParameters predicate, mem_optionParameters limit,
      mem_optionParameters offset, Select.hasParameter_iff]
    refine or_congr_left ?_
    simp [Select.scalars, exists_mem_optionParts, or_and_right, exists_or]

/-- The parameters of columns are those that a part of a column mentions. -/
theorem mem_columnParameters : ∀ columns : List OutputColumn,
    p ∈ columnParameters style columns ↔
      ∃ c ∈ columns, ∃ part ∈ c.expr.parts, part.Mentions style p
  | [] => by simp [columnParameters]
  | ⟨s, _⟩ :: rest => by
    simp [columnParameters, s.mem_parameters, mem_columnParameters rest]

/-- The parameters of tables are those of the subqueries among them. -/
theorem mem_tableParameters : ∀ tables : List TableSource,
    p ∈ tableParameters style tables ↔
      ∃ inner aliasName, TableSource.subquery inner aliasName ∈ tables ∧ inner.HasParameter style p
  | [] => by simp [tableParameters]
  | .table _ _ _ :: rest => by
    simp [tableParameters, mem_tableParameters rest]
  | .subquery select _ :: rest => by
    simp [tableParameters, select.mem_parameters, mem_tableParameters rest, or_and_right, exists_or]

/-- The parameters of keys are those that a part of a key mentions. -/
theorem mem_keyParameters : ∀ keys : List SortKey,
    p ∈ keyParameters style keys ↔ ∃ k ∈ keys, ∃ part ∈ k.expr.parts, part.Mentions style p
  | [] => by simp [keyParameters]
  | ⟨s, _⟩ :: rest => by
    simp [keyParameters, s.mem_parameters, mem_keyParameters rest]

end

end Membership

end QueryPipeline.Sql
