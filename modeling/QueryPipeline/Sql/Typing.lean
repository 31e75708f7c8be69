import QueryPipeline.Sql.Scalar

/-!
# Typed scalars

How scalars are put together over a catalog of store types. Constants and parameters do not know how
they are stored. When one is combined with another operand, it takes the mapping of that operand, so a
text compared with a column is written in the type of the column; when nothing is known, it takes the
mapping that the catalog has for its type. A mapping that is known is never changed.
-/

set_option autoImplicit false

namespace QueryPipeline.Sql

mutual

/-- The scalar with a mapping wherever its value takes its mapping from and none is known: the scalar
itself, operands of arithmetic, and results of a `CASE`. -/
def Scalar.withMapping (m : TypeMapping) : Scalar → Scalar
  | ⟨node, type, some known, isCondition, asValue⟩ => ⟨node, type, some known, isCondition, asValue⟩
  | ⟨node, type, none, isCondition, asValue⟩ => ⟨node.withMapping m, type, some m, isCondition, asValue⟩

/-- The node with a mapping in the parts that its value takes its mapping from. -/
def Node.withMapping (m : TypeMapping) : Node → Node
  | .negate operand => .negate (operand.withMapping m)
  | .binary op left right =>
    if op.isComparison || op.isLogical then .binary op left right
    else .binary op (left.withMapping m) (right.withMapping m)
  | .case branches otherwise =>
    .case (branchesWithMapping m branches) (optionWithMapping m otherwise)
  | node => node

/-- The branches with a mapping for their results. -/
def branchesWithMapping (m : TypeMapping) : List CaseBranch → List CaseBranch
  | [] => []
  | ⟨test, result⟩ :: rest => ⟨test, result.withMapping m⟩ :: branchesWithMapping m rest

/-- The scalar with a mapping, if there is one. -/
def optionWithMapping (m : TypeMapping) : Option Scalar → Option Scalar
  | none => none
  | some s => some (s.withMapping m)

end

/-- The scalar with a mapping that has to be there. -/
def Scalar.withMapping? (m : Option TypeMapping) (s : Scalar) : Except Diagnostic Scalar :=
  match m with
  | some m => .ok (s.withMapping m)
  | none => .error (.bug ("cannot apply an empty type mapping to " ++ s.node.name))

/-- The first mapping that is known among some scalars. -/
def knownMapping? (ss : List Scalar) : Option TypeMapping := ss.findSome? (·.mapping)

namespace Scalar

/-- A constant whose mapping is not known yet. -/
def constant (value : Literal) (type : DataType) : Scalar := natural (.constant value) type none

/-- A parameter whose mapping is not known yet. -/
def parameter (name : String) (type : DataType) : Scalar := natural (.parameter name) type none

/-- A piece of a statement that is written as it is. -/
def fragment (sql : String) (type : DataType) : Scalar := natural (.fragment sql) type none

/-- A text whose mapping is not known yet. -/
def text (s : String) : Scalar := constant (.text s) .text

/-- The operand in the store type of a mapping. -/
def castTo (operand : Scalar) (type : DataType) (mapping : TypeMapping) : Scalar :=
  natural (.cast operand.asValueForm) type (some mapping)

/-- The opposite of a number. -/
def negated (operand : Scalar) : Scalar :=
  natural (.negate operand.asValueForm) operand.type operand.mapping

end Scalar

namespace Catalog

variable (catalog : Catalog)

/-- The mapping for truth values. -/
def boolMapping? : Option TypeMapping := catalog.mapping? .bool

/-- The scalar with the mapping that the catalog has for its type, if none is known. -/
def resolve (s : Scalar) : Scalar :=
  match s.mapping, catalog.mapping? s.type.kind with
  | none, some m => s.withMapping m
  | _, _ => s

/-- The scalar with a mapping that is known from elsewhere, or else with the one of the catalog. -/
def resolveFrom (known : Option TypeMapping) (s : Scalar) : Scalar :=
  match known with
  | some m => s.withMapping m
  | none => catalog.resolve s

/-- Scalars that share the first mapping that is known among them. -/
def unify (ss : List Scalar) : List Scalar := ss.map (catalog.resolveFrom (knownMapping? ss))

/-- A 32-bit integer in its store type. -/
def int (i : Int64) : Scalar :=
  .natural (.constant (.integer i)) .int32 (catalog.mapping? .int32)

/-- A condition over the given parts. -/
def condition (node : Node) : Scalar := .natural node .bool catalog.boolMapping?

/-- Two scalars with an operator between them. Operands of comparison and arithmetic share a mapping.
Arithmetic has the type of its left operand and is absent when an operand is; the first value that is
present among two is only absent when the second is. -/
def binary (op : ScalarOp) (left right : Scalar) : Scalar :=
  if op.isLogical then
    .binary op (catalog.resolve left) (catalog.resolve right) .bool catalog.boolMapping?
  else
    let known := knownMapping? [left, right]
    let left := catalog.resolveFrom known left
    let right := catalog.resolveFrom known right
    if op.isComparison then .binary op left right .bool catalog.boolMapping?
    else
      let nullable :=
        if op = .coalesce then right.type.nullable else left.type.nullable || right.type.nullable
      .binary op left right (left.type.withNullable nullable) left.mapping

/-- Two values are equal. -/
def equal (left right : Scalar) : Scalar := catalog.binary .equal left right

/-- The sum of two numbers, or two texts joined. -/
def add (left right : Scalar) : Scalar := catalog.binary .add left right

/-- The difference of two numbers. -/
def subtract (left right : Scalar) : Scalar := catalog.binary .subtract left right

/-- Both of two conditions. -/
def and (left right : Scalar) : Scalar := catalog.binary .and left right

/-- At least one of two conditions. -/
def or (left right : Scalar) : Scalar := catalog.binary .or left right

/-- The opposite of a condition. -/
def not (operand : Scalar) : Scalar :=
  catalog.condition (.not (catalog.resolve operand).asConditionForm)

/-- A value is absent, or is not. -/
def isNull (operand : Scalar) (negated : Bool) : Scalar :=
  catalog.condition (.isNull (catalog.resolve operand).asValueForm negated)

/-- A function of some values whose result has a given mapping. -/
def functionWith (name : String) (receiver : Option Scalar) (args : List Scalar) (type : DataType)
    (mapping : Option TypeMapping) : Scalar :=
  .natural (.function name none receiver (args.map fun a => (catalog.resolve a).asValueForm)) type
    mapping

/-- A function of some values whose result has the mapping of its type. -/
def function (name : String) (args : List Scalar) (type : DataType) : Scalar :=
  catalog.functionWith name none args type (catalog.mapping? type.kind)

/-- A function whose result has the type of its first argument. -/
def sameTypeFunction (name : String) (first : Scalar) (others : List Scalar) : Scalar :=
  let typed := catalog.resolve first
  catalog.functionWith name none (first :: others) typed.type typed.mapping

/-- The result that belongs to the first condition that holds. Results share a mapping, and the whole
is absent when a result may be or when no condition needs to hold. -/
def case (first : Scalar × Scalar) (others : List (Scalar × Scalar)) (otherwise : Option Scalar) :
    Scalar :=
  let branches := first :: others
  let known := knownMapping? (branches.map (·.2) ++ otherwise.toList)
  let result (s : Scalar) : Scalar := (catalog.resolveFrom known s).asValueForm
  let branch (b : Scalar × Scalar) : CaseBranch :=
    ⟨(catalog.resolve b.1).asConditionForm, result b.2⟩
  let nullable :=
    otherwise.all (·.type.nullable) || branches.any (·.2.type.nullable)
  .natural (.case (branches.map branch) (otherwise.map result)) (first.2.type.withNullable nullable)
    known

/-- The result that belongs to the first condition that holds; there has to be a condition. -/
def caseOf (branches : List (Scalar × Scalar)) (otherwise : Option Scalar) :
    Except Diagnostic Scalar :=
  match branches with
  | [] => .error (.bug "CASE without any WHEN")
  | first :: others => .ok (catalog.case first others otherwise)

/-- A select has rows, or has none. -/
def existsIn (subquery : Select) (negated : Bool) : Scalar :=
  catalog.condition (.existsIn subquery negated)

/-- A text matches a pattern. -/
def like (subject pattern : Scalar) (escape : Option Scalar) : Scalar :=
  let known := knownMapping? (subject :: pattern :: escape.toList)
  let operand := catalog.resolveFrom known
  catalog.condition (.like (operand subject) (operand pattern) (escape.map operand))

/-- A value in the store type of another type, if the catalog has one for it. -/
def cast? (operand : Scalar) (type : DataType) : Option Scalar :=
  (catalog.mapping? type.kind).map ((catalog.resolve operand).castTo type)

end Catalog

end QueryPipeline.Sql
