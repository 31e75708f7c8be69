import QueryPipeline.Diagnostic
import QueryPipeline.Sql.Scalar

/-!
# Replacement

Changing a finished select from its leaves on. A replacement says which scalars give way to others and how
selects are changed once their parts have been; what it leaves alone is searched for more. Every step
answers with the new form only where something below has been replaced, so a part without replacements is
kept as it is.
-/

set_option autoImplicit false

namespace QueryPipeline.Sql

/-- What gives way to what. -/
structure Replacement where
  /-- What a scalar gives way to, or nothing when its parts are to be searched. -/
  scalar : Scalar → Except Diagnostic (Option Scalar)
  /-- What a select gives way to after its parts have been searched, or nothing. -/
  select : Select → Option Select

/-- A new form that only counts if one of its parts has been replaced. -/
def rebuilt {α : Type} (replaced : Bool) (form : α) : Option α := if replaced then some form else none

mutual

/-- A scalar after a replacement. -/
def Scalar.replace? (r : Replacement) : Scalar → Except Diagnostic (Option Scalar)
  | ⟨node, type, mapping, isCondition, asValue⟩ => do
    match ← r.scalar ⟨node, type, mapping, isCondition, asValue⟩ with
    | some s => return some s
    | none =>
      let node' ← node.replace? r
      return node'.map fun node => ⟨node, type, mapping, isCondition, asValue⟩

/-- A node after a replacement in its parts. -/
def Node.replace? (r : Replacement) : Node → Except Diagnostic (Option Node)
  | .column .. | .constant _ | .parameter _ | .fragment _ => .ok none
  | .binary op left right => do
    let left' ← left.replace? r
    let right' ← right.replace? r
    return rebuilt (left'.isSome || right'.isSome)
      (.binary op (left'.getD left) (right'.getD right))
  | .not operand => do return (← operand.replace? r).map .not
  | .negate operand => do return (← operand.replace? r).map .negate
  | .isNull operand negated => do return (← operand.replace? r).map (.isNull · negated)
  | .function name schema receiver args => do
    let receiver' ← replaceOption? r receiver
    let args' ← replaceScalars? r args
    return rebuilt (receiver'.isSome || args'.isSome)
      (.function name schema (receiver'.getD receiver) (args'.getD args))
  | .case branches otherwise => do
    let branches' ← replaceBranches? r branches
    let otherwise' ← replaceOption? r otherwise
    return rebuilt (branches'.isSome || otherwise'.isSome)
      (.case (branches'.getD branches) (otherwise'.getD otherwise))
  | .existsIn subquery negated => do return (← subquery.replace? r).map (.existsIn · negated)
  | .like subject pattern escape => do
    let subject' ← subject.replace? r
    let pattern' ← pattern.replace? r
    let escape' ← replaceOption? r escape
    return rebuilt (subject'.isSome || pattern'.isSome || escape'.isSome)
      (.like (subject'.getD subject) (pattern'.getD pattern) (escape'.getD escape))
  | .cast operand => do return (← operand.replace? r).map .cast

/-- A scalar that may be missing after a replacement. -/
def replaceOption? (r : Replacement) : Option Scalar → Except Diagnostic (Option (Option Scalar))
  | none => .ok none
  | some s => do return (← s.replace? r).map some

/-- Some scalars after a replacement. -/
def replaceScalars? (r : Replacement) : List Scalar → Except Diagnostic (Option (List Scalar))
  | [] => .ok none
  | s :: rest => do
    let s' ← s.replace? r
    let rest' ← replaceScalars? r rest
    return rebuilt (s'.isSome || rest'.isSome) (s'.getD s :: rest'.getD rest)

/-- The branches of a `CASE` after a replacement. -/
def replaceBranches? (r : Replacement) : List CaseBranch → Except Diagnostic (Option (List CaseBranch))
  | [] => .ok none
  | ⟨test, result⟩ :: rest => do
    let test' ← test.replace? r
    let result' ← result.replace? r
    let rest' ← replaceBranches? r rest
    return rebuilt (test'.isSome || result'.isSome || rest'.isSome)
      (⟨test'.getD test, result'.getD result⟩ :: rest'.getD rest)

/-- A select after a replacement. -/
def Select.replace? (r : Replacement) : Select → Except Diagnostic (Option Select)
  | ⟨tables, projection, slots, predicate, orderings, limit, offset, distinct⟩ => do
    let tables' ← replaceTables? r tables
    let projection' ← replaceColumns? r projection
    let predicate' ← replaceOption? r predicate
    let orderings' ← replaceKeys? r orderings
    let limit' ← replaceOption? r limit
    let offset' ← replaceOption? r offset
    let select : Select := ⟨tables'.getD tables, projection'.getD projection, slots,
      predicate'.getD predicate, orderings'.getD orderings, limit'.getD limit, offset'.getD offset,
      distinct⟩
    return r.select select <|> rebuilt (tables'.isSome || projection'.isSome || predicate'.isSome
      || orderings'.isSome || limit'.isSome || offset'.isSome) select

/-- Some sources of rows after a replacement. -/
def replaceTables? (r : Replacement) : List TableSource → Except Diagnostic (Option (List TableSource))
  | [] => .ok none
  | .table name schema aliasName :: rest => do
    return (← replaceTables? r rest).map (.table name schema aliasName :: ·)
  | .subquery select aliasName :: rest => do
    let select' ← select.replace? r
    let rest' ← replaceTables? r rest
    return rebuilt (select'.isSome || rest'.isSome)
      (.subquery (select'.getD select) aliasName :: rest'.getD rest)

/-- Some projected columns after a replacement. -/
def replaceColumns? (r : Replacement) : List OutputColumn → Except Diagnostic (Option (List OutputColumn))
  | [] => .ok none
  | ⟨s, aliasName⟩ :: rest => do
    let s' ← s.replace? r
    let rest' ← replaceColumns? r rest
    return rebuilt (s'.isSome || rest'.isSome) (⟨s'.getD s, aliasName⟩ :: rest'.getD rest)

/-- The keys of an ordering after a replacement. -/
def replaceKeys? (r : Replacement) : List SortKey → Except Diagnostic (Option (List SortKey))
  | [] => .ok none
  | ⟨s, ascending⟩ :: rest => do
    let s' ← s.replace? r
    let rest' ← replaceKeys? r rest
    return rebuilt (s'.isSome || rest'.isSome) (⟨s'.getD s, ascending⟩ :: rest'.getD rest)

end

/-- The scalar with another node and all else as it is. -/
def Scalar.withNode (s : Scalar) (node : Node) : Scalar := { s with node }

namespace Replacement

/-- Nothing is replaced. -/
def nothing : Replacement := ⟨fun _ => .ok none, fun _ => none⟩

/-- Every constant with a value gets another value. -/
def ofConstant (old new : Literal) : Replacement where
  scalar s := .ok (match s.node with
    | .constant value => if value = old then some (s.withNode (.constant new)) else none
    | _ => none)
  select _ := none

end Replacement

/-- Values for parameters, new names for tables and columns, and a column that must not be used. -/
structure Specialization where
  /-- The parameters that become constants. -/
  parameters : List (String × Literal)
  /-- The new names of tables. -/
  tables : List (String × String)
  /-- The new names of columns. -/
  columns : List (String × String)
  /-- The column that is refused. -/
  refused : Option String
deriving DecidableEq

namespace Specialization

/-- What becomes of a scalar in a specialization. -/
def scalar (p : Specialization) (s : Scalar) : Except Diagnostic (Option Scalar) :=
  match s.node with
  | .parameter name => .ok ((p.parameters.lookup name).map fun value => s.withNode (.constant value))
  | .column table name =>
    if p.refused = some name then .error (.simple ("refused column " ++ name))
    else .ok ((p.columns.lookup name).map fun new => s.withNode (.column table new))
  | _ => .ok none

/-- What becomes of a source of rows in a specialization. -/
def table? (p : Specialization) : TableSource → Option TableSource
  | .table name schema aliasName => (p.tables.lookup name).map fun new => .table new schema aliasName
  | .subquery .. => none

/-- What becomes of the sources of a select in a specialization. -/
def select (p : Specialization) (s : Select) : Option Select :=
  rebuilt (s.tables.any fun t => (p.table? t).isSome)
    { s with tables := s.tables.map fun t => (p.table? t).getD t }

/-- The replacement that makes a specialization. -/
def replacement (p : Specialization) : Replacement := ⟨p.scalar, p.select⟩

end Specialization

end QueryPipeline.Sql
