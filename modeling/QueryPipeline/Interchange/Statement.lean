import QueryPipeline.Interchange.Literal
import QueryPipeline.Interchange.Types
import QueryPipeline.Sql.Command
import QueryPipeline.Sql.Draft

/-!
# Interchange of statements

The interchange forms of store types, scalars, selects and commands. They are only written. A store type, a
schema, an alias, and the clauses of a select that are not there are left out.
-/

set_option autoImplicit false

namespace QueryPipeline.Sql

/-- The interchange form of a way to write literals. -/
def LiteralStyle.toJson : LiteralStyle → Json
  | number => .string "Number"
  | text national => Json.case "Text" (.object [("national", .bool national)])
  | bitCast => .string "BitCast"
  | bitInteger => .string "BitInteger"
  | boolKeyword => .string "BoolKeyword"
  | date pattern => Json.case "Date" (.string pattern.code)
  | dateTime pattern => Json.case "DateTime" (.string pattern.code)
  | hexBytes => .string "HexBytes"
  | quotedHexBytes => .string "QuotedHexBytes"
  | escapedHexBytes => .string "EscapedHexBytes"
  | unsupported => .string "Unsupported"

/-- The interchange form of a mapping onto a store type. -/
def TypeMapping.toJson (m : TypeMapping) : Json :=
  .object ([("store_type", .string m.storeType), ("kind", m.kind.toJson),
    ("literal", m.literal.toJson)] ++ Json.optionalField "size" Json.ofNat m.size)

/-- The interchange form of where a row holds something. -/
def Slot.toJson : Slot → Json
  | scalar position => Json.case "Scalar" (Json.ofNat position)
  | entity properties =>
    Json.case "Entity"
      (Json.ofList (fun (name, position) => .array [.string name, Json.ofNat position]) properties)

/-- The interchange form of the places of the paths of a result shape. -/
def slotsToJson (slots : List (MemberPath × Slot)) : Json :=
  Json.ofList (fun (path, slot) => .array [path.toJson, slot.toJson]) slots

mutual

/-- The interchange form of a scalar. -/
def Scalar.toJson : Scalar → Json
  | ⟨node, type, mapping, isCondition, asValue⟩ =>
    .object ([("kind", node.toJson), ("ty", type.toJson)]
      ++ Json.optionalField "type_mapping" TypeMapping.toJson mapping
      ++ [("is_condition", .bool isCondition), ("as_value", .bool asValue)])

/-- The interchange form of a node. -/
def Node.toJson : Node → Json
  | .column table name =>
    Json.case "Column" (.object [("table", .string table), ("name", .string name)])
  | .constant value => Json.case "Constant" value.toJson
  | .parameter name => Json.case "Parameter" (.string name)
  | .binary op left right =>
    Json.case "Binary"
      (.object [("op", .string op.name), ("left", left.toJson), ("right", right.toJson)])
  | .not operand => Json.case "Not" operand.toJson
  | .negate operand => Json.case "Negate" operand.toJson
  | .isNull operand negated =>
    Json.case "IsNull" (.object [("operand", operand.toJson), ("negated", .bool negated)])
  | .function name schema receiver args =>
    Json.case "Function" (.object [("name", .string name), ("schema", Json.ofOption Json.string schema),
      ("instance", optionToJson receiver), ("args", .array (scalarsToJson args))])
  | .case branches otherwise =>
    Json.case "Case" (.object [("whens", .array (branchesToJson branches)),
      ("else_result", optionToJson otherwise)])
  | .existsIn subquery negated =>
    Json.case "Exists" (.object [("subquery", subquery.toJson), ("negated", .bool negated)])
  | .like subject pattern escape =>
    Json.case "Like" (.object [("match_expr", subject.toJson), ("pattern", pattern.toJson),
      ("escape", optionToJson escape)])
  | .cast operand => Json.case "Cast" operand.toJson
  | .fragment sql => Json.case "Fragment" (.string sql)

/-- The interchange form of a scalar that may be missing. -/
def optionToJson : Option Scalar → Json
  | none => .null
  | some s => s.toJson

/-- The interchange forms of some scalars. -/
def scalarsToJson : List Scalar → List Json
  | [] => []
  | s :: rest => s.toJson :: scalarsToJson rest

/-- The interchange forms of the branches of a `CASE`. -/
def branchesToJson : List CaseBranch → List Json
  | [] => []
  | ⟨test, result⟩ :: rest =>
    .object [("test", test.toJson), ("result", result.toJson)] :: branchesToJson rest

/-- The interchange form of a select. -/
def Select.toJson : Select → Json
  | ⟨tables, projection, slots, predicate, orderings, limit, offset, distinct⟩ =>
    .object ([("tables", .array (tablesToJson tables)),
        ("projection", .array (columnsToJson projection)),
        ("projection_mapping", slotsToJson slots)]
      ++ clauseToJson "predicate" predicate
      ++ (if orderings.isEmpty then [] else [("orderings", .array (keysToJson orderings))])
      ++ clauseToJson "limit" limit ++ clauseToJson "offset" offset
      ++ [("is_distinct", .bool distinct)])

/-- The field of a clause, which is left out when there is no such clause. -/
def clauseToJson (name : String) : Option Scalar → List (String × Json)
  | none => []
  | some s => [(name, s.toJson)]

/-- The interchange forms of sources of rows. -/
def tablesToJson : List TableSource → List Json
  | [] => []
  | .table name schema aliasName :: rest =>
    Json.case "Table" (.object (("name", .string name)
      :: Json.optionalField "schema" Json.string schema ++ [("alias", .string aliasName)]))
      :: tablesToJson rest
  | .subquery select aliasName :: rest =>
    Json.case "Subquery" (.object [("select", select.toJson), ("alias", .string aliasName)])
      :: tablesToJson rest

/-- The interchange forms of projected columns. -/
def columnsToJson : List OutputColumn → List Json
  | [] => []
  | ⟨s, aliasName⟩ :: rest =>
    .object (("expr", s.toJson) :: Json.optionalField "alias" Json.string aliasName)
      :: columnsToJson rest

/-- The interchange forms of the keys of an ordering. -/
def keysToJson : List SortKey → List Json
  | [] => []
  | ⟨s, ascending⟩ :: rest =>
    .object [("expr", s.toJson), ("ascending", .bool ascending)] :: keysToJson rest

end

/-- The interchange form of what a path of a result shape leads to. -/
def Projected.toJson : Projected → Json
  | scalar s => Json.case "Sql" s.toJson
  | entity e =>
    Json.case "Entity" (.object [("entity", .string e.entity),
      ("columns", Json.ofList (fun (name, s) => .array [.string name, Scalar.toJson s]) e.columns)])

/-- The interchange form of a parameter of a statement. -/
def CommandParameter.toJson (p : CommandParameter) : Json :=
  .object ([("name", .string p.name), ("placeholder", .string p.placeholder)]
    ++ Json.optionalField "type_mapping" TypeMapping.toJson p.mapping
    ++ [("nullable", .bool p.nullable)])

/-- The interchange form of a command. -/
def Command.toJson (c : Command) : Json :=
  .object [("sql", .string c.sql), ("parameters", Json.ofList CommandParameter.toJson c.parameters)]

end QueryPipeline.Sql
