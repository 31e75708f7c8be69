import QueryPipeline.Expr.Basic
import QueryPipeline.Interchange.Literal
import QueryPipeline.Interchange.Types

/-!
# Interchange of expressions

The interchange forms of operators, expressions and functions. Every expression names its form; a value
that a member or method does not have is null.
-/

set_option autoImplicit false

namespace QueryPipeline

open Json (Decoder)

namespace BinaryOp

/-- All operators. -/
def all : List BinaryOp :=
  [eq, ne, gt, gte, lt, lte, and, or, add, sub, mul, div, mod, bitAnd, bitOr, coalesce, xor, pow, shl,
    shr]

/-- The name of an operator. -/
def name : BinaryOp → String
  | eq => "Eq"
  | ne => "Ne"
  | gt => "Gt"
  | gte => "Gte"
  | lt => "Lt"
  | lte => "Lte"
  | and => "And"
  | or => "Or"
  | add => "Add"
  | sub => "Sub"
  | mul => "Mul"
  | div => "Div"
  | mod => "Mod"
  | bitAnd => "BitAnd"
  | bitOr => "BitOr"
  | coalesce => "Coalesce"
  | xor => "Xor"
  | pow => "Pow"
  | shl => "Shl"
  | shr => "Shr"

/-- The interchange form of an operator. -/
def toJson (op : BinaryOp) : Json := .string op.name

/-- Reads an operator. -/
def ofJson? : Decoder BinaryOp := Json.toBareCase? (all.map fun op => (op.name, op))

end BinaryOp

namespace UnaryOp

/-- The name of an operator. -/
def name : UnaryOp → String
  | not => "Not"
  | negate => "Negate"

/-- The interchange form of an operator. -/
def toJson (op : UnaryOp) : Json := .string op.name

/-- Reads an operator. -/
def ofJson? : Decoder UnaryOp := Json.toBareCase? ([not, negate].map fun op => (op.name, op))

end UnaryOp

namespace Expr

mutual

/-- The interchange form of an expression. -/
def toJson : Expr → Json
  | .param name => Json.case "Param" (.string name)
  | .constant value => Json.case "Constant" value.toJson
  | .parameter name type =>
    Json.case "Parameter" (.object [("name", .string name), ("ty", type.toJson)])
  | .member receiver name =>
    Json.case "Member" (.object [("instance", receiverToJson receiver), ("member", name.toJson)])
  | .shape members => Json.case "New" (.array (membersToJson members))
  | .binary op left right =>
    Json.case "Binary"
      (.object [("op", op.toJson), ("left", left.toJson), ("right", right.toJson)])
  | .unary op operand => Json.case "Unary" (.object [("op", op.toJson), ("expr", operand.toJson)])
  | .call receiver function args =>
    Json.case "Call" (.object [("instance", receiverToJson receiver), ("function", function.toJson),
      ("args", .array (argsToJson args))])
  | .conditional test ifTrue ifFalse =>
    Json.case "Conditional" (.object [("test", test.toJson), ("if_true", ifTrue.toJson),
      ("if_false", ifFalse.toJson)])
  | .convert operand type =>
    Json.case "Convert" (.object [("expr", operand.toJson), ("ty", type.toJson)])
  | .entity name path =>
    Json.case "EntityShaper" (.object [("entity", .string name), ("member", path.toJson)])
  | .binding path type =>
    Json.case "ProjectionBinding" (.object [("member", path.toJson), ("ty", type.toJson)])
  | .ensureNonEmpty inner => Json.case "EnsureNonEmpty" inner.toJson

/-- The interchange form of the value that a member or method belongs to. -/
def receiverToJson : Option Expr → Json
  | none => .null
  | some e => e.toJson

/-- The interchange forms of arguments. -/
def argsToJson : List Expr → List Json
  | [] => []
  | e :: rest => e.toJson :: argsToJson rest

/-- The interchange forms of members. -/
def membersToJson : List ShapeMember → List Json
  | [] => []
  | ⟨name, e⟩ :: rest =>
    .object [("name", Json.ofOption Json.string name), ("expr", e.toJson)] :: membersToJson rest

end

/-- Reads a member of a shape whose expression `decoder` reads. -/
def readMember (decoder : Decoder Expr) : Decoder ShapeMember := fun j => do
  let r ← j.toRecord? ["name", "expr"]
  return ⟨← r.optional? "name" Json.toString?, ← r.required? "expr" decoder⟩

/-- Reads what an expression of a form consists of, whose parts `decoder` reads. -/
def readContent (decoder : Decoder Expr) (form : String) : Decoder Expr := fun j => do
  match form with
  | "Param" => return .param (← j.toString?)
  | "Constant" => return .constant (← Literal.ofJson? j)
  | "Parameter" =>
    let r ← j.toRecord? ["name", "ty"]
    return .parameter (← r.required? "name" Json.toString?) (← r.required? "ty" DataType.ofJson?)
  | "Member" =>
    let r ← j.toRecord? ["instance", "member"]
    return .member (← r.optional? "instance" decoder) (← r.required? "member" QualifiedName.ofJson?)
  | "New" => return .shape (← j.toList? (readMember decoder))
  | "Binary" =>
    let r ← j.toRecord? ["op", "left", "right"]
    return .binary (← r.required? "op" BinaryOp.ofJson?) (← r.required? "left" decoder)
      (← r.required? "right" decoder)
  | "Unary" =>
    let r ← j.toRecord? ["op", "expr"]
    return .unary (← r.required? "op" UnaryOp.ofJson?) (← r.required? "expr" decoder)
  | "Call" =>
    let r ← j.toRecord? ["instance", "function", "args"]
    return .call (← r.optional? "instance" decoder)
      (← r.required? "function" QualifiedName.ofJson?)
      (← r.required? "args" (Json.toList? decoder))
  | "Conditional" =>
    let r ← j.toRecord? ["test", "if_true", "if_false"]
    return .conditional (← r.required? "test" decoder) (← r.required? "if_true" decoder)
      (← r.required? "if_false" decoder)
  | "Convert" =>
    let r ← j.toRecord? ["expr", "ty"]
    return .convert (← r.required? "expr" decoder) (← r.required? "ty" DataType.ofJson?)
  | "EntityShaper" =>
    let r ← j.toRecord? ["entity", "member"]
    return .entity (← r.required? "entity" Json.toString?)
      (← r.required? "member" MemberPath.ofJson?)
  | "ProjectionBinding" =>
    let r ← j.toRecord? ["member", "ty"]
    return .binding (← r.required? "member" MemberPath.ofJson?)
      (← r.required? "ty" DataType.ofJson?)
  | "EnsureNonEmpty" => return .ensureNonEmpty (← decoder j)
  | _ => none

/-- Reads an expression that nests less deep than `fuel`. -/
def read : (fuel : Nat) → Decoder Expr
  | 0, _ => none
  | fuel + 1, j => do
    let c ← j.toCase?
    readContent (read fuel) c.name (← c.content)

/-- Reads an expression. -/
def ofJson? : Decoder Expr := fun j => read (j.depth + 1) j

end Expr

namespace Lambda

/-- The interchange form of a function. -/
def toJson (f : Lambda) : Json := .object [("param", .string f.param), ("body", f.body.toJson)]

/-- Reads a function. -/
def ofJson? : Decoder Lambda := fun j => do
  let r ← j.toRecord? ["param", "body"]
  return ⟨← r.required? "param" Json.toString?, ← r.required? "body" Expr.ofJson?⟩

end Lambda

end QueryPipeline
