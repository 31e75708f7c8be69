import QueryPipeline.Proofs.ParameterNodes
import QueryPipeline.Sql.Replacement

/-!
# Replacement without sharing

A plain replacement puts every node together again, whether one of its parts has changed or not. A replacement
that keeps the parts without changes comes to the same: it answers with the outcome of the plain one where a
parameter is replaced, and with nothing where the plain one does not change anything. The parameters that are
left are those that have not been replaced, in the order in which they stood before.
-/

set_option autoImplicit false

namespace QueryPipeline.Sql

section Plain

variable (f : Scalar → Option Scalar)

mutual

/-- The scalar with all scalars in it replaced that `f` gives something for. -/
def Scalar.replaceAll : Scalar → Scalar
  | ⟨node, type, mapping, isCondition, asValue⟩ =>
    (f ⟨node, type, mapping, isCondition, asValue⟩).getD
      ⟨node.replaceAll, type, mapping, isCondition, asValue⟩

/-- The node with all scalars in it replaced that `f` gives something for. -/
def Node.replaceAll : Node → Node
  | .column table name => .column table name
  | .constant value => .constant value
  | .parameter name => .parameter name
  | .binary op left right => .binary op left.replaceAll right.replaceAll
  | .not operand => .not operand.replaceAll
  | .negate operand => .negate operand.replaceAll
  | .isNull operand negated => .isNull operand.replaceAll negated
  | .function name schema receiver args =>
    .function name schema (replaceAllOption receiver) (replaceAllScalars args)
  | .case branches otherwise => .case (replaceAllBranches branches) (replaceAllOption otherwise)
  | .existsIn subquery negated => .existsIn subquery.replaceAll negated
  | .like subject pattern escape => .like subject.replaceAll pattern.replaceAll (replaceAllOption escape)
  | .cast operand => .cast operand.replaceAll
  | .fragment sql => .fragment sql

/-- The scalar that may be missing, replaced. -/
def replaceAllOption : Option Scalar → Option Scalar
  | none => none
  | some s => some s.replaceAll

/-- The scalars, each one replaced. -/
def replaceAllScalars : List Scalar → List Scalar
  | [] => []
  | s :: rest => s.replaceAll :: replaceAllScalars rest

/-- The branches of a `CASE` with their scalars replaced. -/
def replaceAllBranches : List CaseBranch → List CaseBranch
  | [] => []
  | ⟨test, result⟩ :: rest => ⟨test.replaceAll, result.replaceAll⟩ :: replaceAllBranches rest

/-- The select with the scalars in it replaced. -/
def Select.replaceAll : Select → Select
  | ⟨tables, projection, slots, predicate, orderings, limit, offset, distinct⟩ =>
    ⟨replaceAllTables tables, replaceAllColumns projection, slots, replaceAllOption predicate,
      replaceAllKeys orderings, replaceAllOption limit, replaceAllOption offset, distinct⟩

/-- The tables with the scalars of their subqueries replaced. -/
def replaceAllTables : List TableSource → List TableSource
  | [] => []
  | .table name schema aliasName :: rest => .table name schema aliasName :: replaceAllTables rest
  | .subquery select aliasName :: rest => .subquery select.replaceAll aliasName :: replaceAllTables rest

/-- The columns with their scalars replaced. -/
def replaceAllColumns : List OutputColumn → List OutputColumn
  | [] => []
  | ⟨s, aliasName⟩ :: rest => ⟨s.replaceAll, aliasName⟩ :: replaceAllColumns rest

/-- The keys with their scalars replaced. -/
def replaceAllKeys : List SortKey → List SortKey
  | [] => []
  | ⟨s, ascending⟩ :: rest => ⟨s.replaceAll, ascending⟩ :: replaceAllKeys rest

end

end Plain

/-- A node is one of the parameters. -/
def Node.isOneOf (which : String → Bool) : Node → Bool
  | .parameter name => which name
  | _ => false

/-- What becomes of a scalar when some parameters become constants. The constant and all that it keeps of the
parameter besides may depend on the scalar. -/
def Scalar.asConstant? (which : String → Bool) (value : Scalar → Literal) (frame : Scalar → Scalar)
    (s : Scalar) : Option Scalar :=
  if s.node.isOneOf which then some ((frame s).withNode (.constant (value s))) else none

/-- Some parameters become constants. -/
def Replacement.ofParameters (which : String → Bool) (value : Scalar → Literal) (frame : Scalar → Scalar) :
    Replacement where
  scalar s := .ok (s.asConstant? which value frame)
  select _ := none

section Rebuilding

variable {α β : Type} {replaced : Bool}

/-- Where nothing is replaced, no form is put together again. -/
@[simp] theorem rebuilt_false (form : α) : rebuilt false form = none := rfl

/-- A form is put together again just where something is replaced. -/
@[simp] theorem isSome_rebuilt (form : α) : (rebuilt replaced form).isSome = replaced := by
  cases replaced <;> rfl

/-- What is made of a form is put together again where the form is. -/
@[simp] theorem map_rebuilt (g : α → β) (form : α) :
    (rebuilt replaced form).map g = rebuilt replaced (g form) := by
  cases replaced <;> rfl

/-- No form is put together again just where nothing is replaced. -/
@[simp] theorem rebuilt_eq_none_iff {form : α} : rebuilt replaced form = none ↔ replaced = false := by
  cases replaced <;> simp [rebuilt]

/-- A new form that is the old one unless something has been replaced can be taken in any case. -/
theorem getD_rebuilt {form old : α} (h : replaced = false → form = old) :
    (rebuilt replaced form).getD old = form := by
  cases replaced with
  | false => exact (h rfl).symm
  | true => rfl

end Rebuilding

/-- An answer of a replacement that keeps what has no changes: the new form if something has changed, and nothing
if the old one is the new one. -/
structure Shares {α : Type} (changed : Bool) (old new : α) (answer : Except Diagnostic (Option α)) : Prop where
  answer_eq : answer = .ok (rebuilt changed new)
  eq_of_unchanged : changed = false → new = old

namespace Shares

variable {α β γ δ : Type} {a b c : Bool} {x x' : α} {y y' : β} {z z' : γ}
  {ax : Except Diagnostic (Option α)} {ay : Except Diagnostic (Option β)} {az : Except Diagnostic (Option γ)}

/-- What stays as it is answers with nothing. -/
theorem unchanged (x : α) : Shares false x x (.ok none) := ⟨rfl, fun _ => rfl⟩

/-- What has one part changes with it. -/
theorem one (form : α → δ) (hx : Shares a x x' ax) :
    Shares a (form x) (form x') (do return (← ax).map form) where
  answer_eq := by
    rw [hx.answer_eq]
    exact congrArg Except.ok (map_rebuilt form x')
  eq_of_unchanged h := congrArg form (hx.eq_of_unchanged h)

/-- What has two parts changes with each of them. -/
theorem two (form : α → β → δ) (hx : Shares a x x' ax) (hy : Shares b y y' ay) :
    Shares (a || b) (form x y) (form x' y') (do
      let x? ← ax
      let y? ← ay
      return rebuilt (x?.isSome || y?.isSome) (form (x?.getD x) (y?.getD y))) where
  answer_eq := by
    rw [hx.answer_eq, hy.answer_eq]
    refine congrArg Except.ok ?_
    rw [isSome_rebuilt, isSome_rebuilt, getD_rebuilt hx.eq_of_unchanged, getD_rebuilt hy.eq_of_unchanged]
  eq_of_unchanged h := by
    rw [Bool.or_eq_false_iff] at h
    rw [hx.eq_of_unchanged h.1, hy.eq_of_unchanged h.2]

/-- What has three parts changes with each of them. -/
theorem three (form : α → β → γ → δ) (hx : Shares a x x' ax) (hy : Shares b y y' ay)
    (hz : Shares c z z' az) :
    Shares (a || b || c) (form x y z) (form x' y' z') (do
      let x? ← ax
      let y? ← ay
      let z? ← az
      return rebuilt (x?.isSome || y?.isSome || z?.isSome)
        (form (x?.getD x) (y?.getD y) (z?.getD z))) where
  answer_eq := by
    rw [hx.answer_eq, hy.answer_eq, hz.answer_eq]
    refine congrArg Except.ok ?_
    rw [isSome_rebuilt, isSome_rebuilt, isSome_rebuilt, getD_rebuilt hx.eq_of_unchanged,
      getD_rebuilt hy.eq_of_unchanged, getD_rebuilt hz.eq_of_unchanged]
  eq_of_unchanged h := by
    simp only [Bool.or_eq_false_iff] at h
    rw [hx.eq_of_unchanged h.1.1, hy.eq_of_unchanged h.1.2, hz.eq_of_unchanged h.2]

end Shares

section Parameters

variable (which : String → Bool) (value : Scalar → Literal) (frame : Scalar → Scalar) (style : NameStyle)

/-- One of some parameters is among those that are replaced. -/
def namesOneOf (ps : List CommandParameter) : Bool := ps.any fun p => which p.name

/-- Of parameters one after the other one is replaced when one of the first or one of the others is. -/
@[simp] theorem namesOneOf_append (ps qs : List CommandParameter) :
    namesOneOf which (ps ++ qs) = (namesOneOf which ps || namesOneOf which qs) := List.any_append

variable {which value frame style}

/-- One of some parameters is replaced when there is one with such a name. -/
theorem namesOneOf_iff {ps : List CommandParameter} :
    namesOneOf which ps = true ↔ ∃ p ∈ ps, which p.name = true := List.any_eq_true

/-- Whether a select has one of the parameters does not depend on the order of its clauses. -/
theorem Select.namesOneOf_parameters (s : Select) : namesOneOf which (s.parameters style) =
    (namesOneOf which (tableParameters style s.tables) ||
      namesOneOf which (columnParameters style s.projection) ||
      namesOneOf which (optionParameters style s.predicate) ||
      namesOneOf which (keyParameters style s.orderings) ||
      namesOneOf which (optionParameters style s.limit) ||
      namesOneOf which (optionParameters style s.offset)) := by
  rw [Bool.eq_iff_iff]
  simp only [Bool.or_eq_true, namesOneOf_iff, s.mem_parameters_iff, or_and_right, exists_or]
  refine or_comm.trans ?_
  simp only [or_assoc]

/-- A node that is one of the parameters is a parameter with such a name. -/
theorem Node.eq_parameter_of_isOneOf {n : Node} (h : n.isOneOf which = true) :
    ∃ name, n = .parameter name ∧ which name = true := by
  cases n with
  | parameter name => exact ⟨name, rfl, h⟩
  | _ => cases h

/-- To make constants of parameters answers for each scalar with its constant, if it has one. -/
theorem Replacement.ofParameters_scalar (s : Scalar) :
    (ofParameters which value frame).scalar s = .ok (s.asConstant? which value frame) := rfl

/-- A parameter that is replaced becomes its constant. -/
theorem Scalar.asConstant?_of_isOneOf {s : Scalar} (h : s.node.isOneOf which = true) :
    s.asConstant? which value frame = some ((frame s).withNode (.constant (value s))) := if_pos h

/-- Any other scalar becomes no constant. -/
theorem Scalar.asConstant?_of_not_isOneOf {s : Scalar} (h : s.node.isOneOf which = false) :
    s.asConstant? which value frame = none := if_neg (Bool.eq_false_iff.1 h)

mutual

/-- A replacement of parameters that keeps what has no changes comes to the same as the plain one, and answers
with a new scalar just when it has one of the parameters. -/
theorem Scalar.replace?_ofParameters : ∀ s : Scalar,
    Shares (namesOneOf which (s.parameters style)) s (s.replaceAll (Scalar.asConstant? which value frame))
      (s.replace? (.ofParameters which value frame))
  | ⟨node, type, mapping, isCondition, asValue⟩ => by
    cases hone : node.isOneOf which with
    | true =>
      -- a parameter gives way before its parts are searched
      obtain ⟨name, rfl, hname⟩ := Node.eq_parameter_of_isOneOf hone
      have hnames : namesOneOf which
          (Scalar.parameters style ⟨.parameter name, type, mapping, isCondition, asValue⟩) = true := by
        simp [Scalar.parameters, Node.parameters, namesOneOf, hname]
      rw [hnames]
      refine ⟨?_, nofun⟩
      rw [Scalar.replaceAll, Scalar.replace?, Replacement.ofParameters_scalar,
        Scalar.asConstant?_of_isOneOf hone]
      rfl
    | false =>
      rw [Scalar.parameters, Scalar.replaceAll, Scalar.replace?, Replacement.ofParameters_scalar,
        Scalar.asConstant?_of_not_isOneOf hone]
      exact .one (fun node => (⟨node, type, mapping, isCondition, asValue⟩ : Scalar))
        (node.replace?_ofParameters type mapping hone)

/-- A node that is no parameter to be replaced shares what has no such parameters in it. -/
theorem Node.replace?_ofParameters (type : DataType) (mapping : Option TypeMapping) : ∀ n : Node,
    n.isOneOf which = false →
      Shares (namesOneOf which (n.parameters style type mapping)) n
        (n.replaceAll (Scalar.asConstant? which value frame)) (n.replace? (.ofParameters which value frame))
  | .column _ _ | .constant _ | .fragment _ => fun _ => .unchanged _
  | .parameter name => by
    intro h
    have hkept : namesOneOf which (Node.parameters style type mapping (.parameter name)) = false := by
      rw [Node.isOneOf] at h
      simpa [Node.parameters, namesOneOf] using h
    rw [hkept]
    exact .unchanged _
  | .binary op left right => by
    intro _
    rw [Node.parameters, namesOneOf_append]
    exact .two (Node.binary op) left.replace?_ofParameters right.replace?_ofParameters
  | .not operand => fun _ => .one Node.not operand.replace?_ofParameters
  | .negate operand => fun _ => .one Node.negate operand.replace?_ofParameters
  | .isNull operand negated => fun _ => .one (Node.isNull · negated) operand.replace?_ofParameters
  | .cast operand => fun _ => .one Node.cast operand.replace?_ofParameters
  | .function name schema receiver args => by
    intro _
    rw [Node.parameters, namesOneOf_append]
    exact .two (Node.function name schema) (replaceOption?_ofParameters receiver)
      (replaceScalars?_ofParameters args)
  | .case branches otherwise => by
    intro _
    rw [Node.parameters, namesOneOf_append]
    exact .two Node.case (replaceBranches?_ofParameters branches) (replaceOption?_ofParameters otherwise)
  | .existsIn subquery negated => fun _ => .one (Node.existsIn · negated) subquery.replace?_ofParameters
  | .like subject pattern escape => by
    intro _
    rw [Node.parameters, namesOneOf_append, namesOneOf_append]
    exact .three Node.like subject.replace?_ofParameters pattern.replace?_ofParameters
      (replaceOption?_ofParameters escape)

/-- A scalar that may be missing shares what has no such parameters in it. -/
theorem replaceOption?_ofParameters : ∀ s : Option Scalar,
    Shares (namesOneOf which (optionParameters style s)) s
      (replaceAllOption (Scalar.asConstant? which value frame) s)
      (replaceOption? (.ofParameters which value frame) s)
  | none => .unchanged none
  | some s => .one some s.replace?_ofParameters

/-- Scalars share what has no such parameters in it. -/
theorem replaceScalars?_ofParameters : ∀ ss : List Scalar,
    Shares (namesOneOf which (listParameters style ss)) ss
      (replaceAllScalars (Scalar.asConstant? which value frame) ss)
      (replaceScalars? (.ofParameters which value frame) ss)
  | [] => .unchanged []
  | s :: rest => by
    rw [listParameters, namesOneOf_append]
    exact .two List.cons s.replace?_ofParameters (replaceScalars?_ofParameters rest)

/-- The branches of a `CASE` share what has no such parameters in it. -/
theorem replaceBranches?_ofParameters : ∀ branches : List CaseBranch,
    Shares (namesOneOf which (branchParameters style branches)) branches
      (replaceAllBranches (Scalar.asConstant? which value frame) branches)
      (replaceBranches? (.ofParameters which value frame) branches)
  | [] => .unchanged []
  | ⟨test, result⟩ :: rest => by
    rw [branchParameters, namesOneOf_append, namesOneOf_append]
    exact .three (fun test result rest => ⟨test, result⟩ :: rest) test.replace?_ofParameters
      result.replace?_ofParameters (replaceBranches?_ofParameters rest)

/-- A select shares what has no such parameters in it. -/
theorem Select.replace?_ofParameters : ∀ s : Select,
    Shares (namesOneOf which (s.parameters style)) s
      (s.replaceAll (Scalar.asConstant? which value frame)) (s.replace? (.ofParameters which value frame))
  | ⟨tables, projection, slots, predicate, orderings, limit, offset, distinct⟩ => by
    have htables := replaceTables?_ofParameters tables
    have hprojection := replaceColumns?_ofParameters projection
    have hpredicate := replaceOption?_ofParameters predicate
    have horderings := replaceKeys?_ofParameters orderings
    have hlimit := replaceOption?_ofParameters limit
    have hoffset := replaceOption?_ofParameters offset
    rw [Select.namesOneOf_parameters]
    refine ⟨?_, fun h => ?_⟩
    · rw [Select.replace?, htables.answer_eq, hprojection.answer_eq, hpredicate.answer_eq,
        horderings.answer_eq, hlimit.answer_eq, hoffset.answer_eq]
      refine congrArg Except.ok ?_
      simp only [isSome_rebuilt, getD_rebuilt htables.eq_of_unchanged,
        getD_rebuilt hprojection.eq_of_unchanged, getD_rebuilt hpredicate.eq_of_unchanged,
        getD_rebuilt horderings.eq_of_unchanged, getD_rebuilt hlimit.eq_of_unchanged,
        getD_rebuilt hoffset.eq_of_unchanged]
      rfl
    · simp only [Bool.or_eq_false_iff] at h
      obtain ⟨⟨⟨⟨⟨ht, hp⟩, hc⟩, hk⟩, hl⟩, ho⟩ := h
      rw [Select.replaceAll, htables.eq_of_unchanged ht, hprojection.eq_of_unchanged hp,
        hpredicate.eq_of_unchanged hc, horderings.eq_of_unchanged hk, hlimit.eq_of_unchanged hl,
        hoffset.eq_of_unchanged ho]

/-- Tables share what has no such parameters in it. -/
theorem replaceTables?_ofParameters : ∀ tables : List TableSource,
    Shares (namesOneOf which (tableParameters style tables)) tables
      (replaceAllTables (Scalar.asConstant? which value frame) tables)
      (replaceTables? (.ofParameters which value frame) tables)
  | [] => .unchanged []
  | .table name schema aliasName :: rest =>
    .one (TableSource.table name schema aliasName :: ·) (replaceTables?_ofParameters rest)
  | .subquery select aliasName :: rest => by
    rw [tableParameters, namesOneOf_append]
    exact .two (fun select rest => .subquery select aliasName :: rest) select.replace?_ofParameters
      (replaceTables?_ofParameters rest)

/-- Columns share what has no such parameters in it. -/
theorem replaceColumns?_ofParameters : ∀ columns : List OutputColumn,
    Shares (namesOneOf which (columnParameters style columns)) columns
      (replaceAllColumns (Scalar.asConstant? which value frame) columns)
      (replaceColumns? (.ofParameters which value frame) columns)
  | [] => .unchanged []
  | ⟨s, aliasName⟩ :: rest => by
    rw [columnParameters, namesOneOf_append]
    exact .two (fun s rest => ⟨s, aliasName⟩ :: rest) s.replace?_ofParameters
      (replaceColumns?_ofParameters rest)

/-- Keys share what has no such parameters in it. -/
theorem replaceKeys?_ofParameters : ∀ keys : List SortKey,
    Shares (namesOneOf which (keyParameters style keys)) keys
      (replaceAllKeys (Scalar.asConstant? which value frame) keys)
      (replaceKeys? (.ofParameters which value frame) keys)
  | [] => .unchanged []
  | ⟨s, ascending⟩ :: rest => by
    rw [keyParameters, namesOneOf_append]
    exact .two (fun s rest => ⟨s, ascending⟩ :: rest) s.replace?_ofParameters
      (replaceKeys?_ofParameters rest)

end

variable (which) in
/-- The parameters that are not replaced. -/
def remaining (ps : List CommandParameter) : List CommandParameter := ps.filter fun p => !which p.name

/-- Of no parameters none is left. -/
@[simp] theorem remaining_nil : remaining which [] = [] := rfl

/-- Of parameters one after the other those are left that are left of the first and of the others. -/
@[simp] theorem remaining_append (ps qs : List CommandParameter) :
    remaining which (ps ++ qs) = remaining which ps ++ remaining which qs := List.filter_append ..

/-- A parameter that is replaced is not left. -/
theorem remaining_cons_of_replaced {p : CommandParameter} (h : which p.name = true)
    (ps : List CommandParameter) : remaining which (p :: ps) = remaining which ps := by
  simp [remaining, h]

/-- A parameter that is not replaced is left. -/
theorem remaining_cons_of_kept {p : CommandParameter} (h : which p.name = false)
    (ps : List CommandParameter) : remaining which (p :: ps) = p :: remaining which ps := by
  simp [remaining, h]

/-- None of the parameters that are left is one to be replaced. -/
theorem namesOneOf_remaining (ps : List CommandParameter) :
    namesOneOf which (remaining which ps) = false := by
  rw [namesOneOf, List.any_eq_false]
  intro p hp
  simpa using (List.mem_filter.1 hp).2

mutual

/-- A replacement of parameters by constants leaves the other parameters, in the order they had. -/
theorem Scalar.parameters_replaceAll : ∀ s : Scalar,
    (s.replaceAll (Scalar.asConstant? which value frame)).parameters style =
      remaining which (s.parameters style)
  | ⟨node, type, mapping, isCondition, asValue⟩ => by
    cases hone : node.isOneOf which with
    | true =>
      obtain ⟨name, rfl, hname⟩ := Node.eq_parameter_of_isOneOf hone
      rw [Scalar.replaceAll, Scalar.asConstant?_of_isOneOf hone]
      exact (remaining_cons_of_replaced hname []).symm
    | false =>
      rw [Scalar.replaceAll, Scalar.asConstant?_of_not_isOneOf hone]
      exact node.parameters_replaceAll type mapping hone

/-- A node keeps the parameters that are not replaced. -/
theorem Node.parameters_replaceAll (type : DataType) (mapping : Option TypeMapping) : ∀ n : Node,
    n.isOneOf which = false →
      (n.replaceAll (Scalar.asConstant? which value frame)).parameters style type mapping =
        remaining which (n.parameters style type mapping)
  | .column _ _ | .constant _ | .fragment _ => fun _ => rfl
  | .parameter name => by
    intro h
    exact (remaining_cons_of_kept h []).symm
  | .binary _ left right => by
    intro _
    simp only [Node.replaceAll, Node.parameters, left.parameters_replaceAll, right.parameters_replaceAll,
      remaining_append]
  | .not operand | .negate operand | .isNull operand _ | .cast operand =>
    fun _ => operand.parameters_replaceAll
  | .function _ _ receiver args => by
    intro _
    simp only [Node.replaceAll, Node.parameters, optionParameters_replaceAll receiver,
      listParameters_replaceAll args, remaining_append]
  | .case branches otherwise => by
    intro _
    simp only [Node.replaceAll, Node.parameters, branchParameters_replaceAll branches,
      optionParameters_replaceAll otherwise, remaining_append]
  | .existsIn subquery _ => fun _ => subquery.parameters_replaceAll
  | .like subject pattern escape => by
    intro _
    simp only [Node.replaceAll, Node.parameters, subject.parameters_replaceAll,
      pattern.parameters_replaceAll, optionParameters_replaceAll escape, remaining_append]

/-- A scalar that may be missing keeps the parameters that are not replaced. -/
theorem optionParameters_replaceAll : ∀ s : Option Scalar,
    optionParameters style (replaceAllOption (Scalar.asConstant? which value frame) s) =
      remaining which (optionParameters style s)
  | none => rfl
  | some s => s.parameters_replaceAll

/-- Scalars keep the parameters that are not replaced. -/
theorem listParameters_replaceAll : ∀ ss : List Scalar,
    listParameters style (replaceAllScalars (Scalar.asConstant? which value frame) ss) =
      remaining which (listParameters style ss)
  | [] => rfl
  | s :: rest => by
    simp only [replaceAllScalars, listParameters, s.parameters_replaceAll, listParameters_replaceAll rest,
      remaining_append]

/-- The branches of a `CASE` keep the parameters that are not replaced. -/
theorem branchParameters_replaceAll : ∀ branches : List CaseBranch,
    branchParameters style (replaceAllBranches (Scalar.asConstant? which value frame) branches) =
      remaining which (branchParameters style branches)
  | [] => rfl
  | ⟨test, result⟩ :: rest => by
    simp only [replaceAllBranches, branchParameters, test.parameters_replaceAll,
      result.parameters_replaceAll, branchParameters_replaceAll rest, remaining_append]

/-- A select keeps the parameters that are not replaced. -/
theorem Select.parameters_replaceAll : ∀ s : Select,
    (s.replaceAll (Scalar.asConstant? which value frame)).parameters style =
      remaining which (s.parameters style)
  | ⟨tables, projection, slots, predicate, orderings, limit, offset, distinct⟩ => by
    -- a limit is where it was, as the offset is neither dropped nor made up
    have hoffset : (replaceAllOption (Scalar.asConstant? which value frame) offset).isNone = offset.isNone := by
      cases offset <;> rfl
    simp only [Select.replaceAll, Select.parameters, hoffset, columnParameters_replaceAll projection,
      tableParameters_replaceAll tables, keyParameters_replaceAll orderings,
      optionParameters_replaceAll predicate, optionParameters_replaceAll limit,
      optionParameters_replaceAll offset, remaining_append, apply_ite (remaining which), remaining_nil]

/-- Columns keep the parameters that are not replaced. -/
theorem columnParameters_replaceAll : ∀ columns : List OutputColumn,
    columnParameters style (replaceAllColumns (Scalar.asConstant? which value frame) columns) =
      remaining which (columnParameters style columns)
  | [] => rfl
  | ⟨s, _⟩ :: rest => by
    simp only [replaceAllColumns, columnParameters, s.parameters_replaceAll, columnParameters_replaceAll rest,
      remaining_append]

/-- Tables keep the parameters that are not replaced. -/
theorem tableParameters_replaceAll : ∀ tables : List TableSource,
    tableParameters style (replaceAllTables (Scalar.asConstant? which value frame) tables) =
      remaining which (tableParameters style tables)
  | [] => rfl
  | .table _ _ _ :: rest => tableParameters_replaceAll rest
  | .subquery select _ :: rest => by
    simp only [replaceAllTables, tableParameters, select.parameters_replaceAll,
      tableParameters_replaceAll rest, remaining_append]

/-- Keys keep the parameters that are not replaced. -/
theorem keyParameters_replaceAll : ∀ keys : List SortKey,
    keyParameters style (replaceAllKeys (Scalar.asConstant? which value frame) keys) =
      remaining which (keyParameters style keys)
  | [] => rfl
  | ⟨s, _⟩ :: rest => by
    simp only [replaceAllKeys, keyParameters, s.parameters_replaceAll, keyParameters_replaceAll rest,
      remaining_append]

end

end Parameters

end QueryPipeline.Sql
