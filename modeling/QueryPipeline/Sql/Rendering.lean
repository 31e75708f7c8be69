import QueryPipeline.Sql.Command
import QueryPipeline.Sql.Identifier
import QueryPipeline.Sql.Scalar

/-!
# Statements

How selects and scalars are written. Operands that are written with an operator themselves stand in
parentheses, and nested selects on indented lines of their own. Where a dialect has no boolean values,
a condition that stands for a value is written as a `CASE`, and a boolean value that stands for a
condition is compared with the literal for `true`.
-/

set_option autoImplicit false

namespace QueryPipeline.Sql

/-- The pieces of a statement, or why it cannot be written. -/
abbrev Written := Except Diagnostic (List Piece)

/-- The literal of a truth value in the store type of a node. -/
def boolLiteral (mapping : Option TypeMapping) (b : Bool) : Except Diagnostic String :=
  match mapping with
  | some m => m.write (.boolean b)
  | none => .ok (bit b)

/-- The literal of a constant, which needs a store type unless it is null. -/
def constantText (mapping : Option TypeMapping) (value : Literal) : Except Diagnostic String :=
  match mapping with
  | some m => m.write value
  | none =>
    if value.isNull then .ok "NULL"
    else .error (.bug ("constant " ++ value.display ++ " has no type mapping"))

/-- The node is written with an operator between two operands. -/
def Node.isInfix : Node → Bool
  | .binary op _ _ => op != .coalesce
  | _ => false

/-- The pieces of an operand, in parentheses if they have to be. -/
def parenthesize (needed : Bool) (pieces : List Piece) : List Piece :=
  if needed then .text "(" :: pieces ++ [.text ")"] else pieces

/-- What stands between two operands. Texts are joined by an operator of their own. -/
def operatorText (style : NameStyle) (op : ScalarOp) (kind : DataKind) : String :=
  if op = .add ∧ (kind = .text ∨ kind = .char) then " " ++ style.dialect.joinOperator ++ " "
  else op.token

/-- A condition as a value. -/
def conditionAsValue (condition : List Piece) (ifTrue ifFalse : String) : List Piece :=
  [.text "CASE", .indent, .newline, .text "WHEN "] ++ condition
    ++ [.text (" THEN " ++ ifTrue), .newline, .text ("ELSE " ++ ifFalse), .dedent, .newline,
      .text "END"]

/-- A source of rows is followed by its alias. -/
def aliasText (style : NameStyle) (aliasName : String) : List Piece :=
  [.text (" AS " ++ style.write aliasName)]

/-- A projected column is followed by its name, unless it has it by itself. -/
def outputAlias (style : NameStyle) (s : Scalar) : Option String → List Piece
  | none => []
  | some aliasName => if s.ownName? = some aliasName then [] else aliasText style aliasName

/-- What stands before an offset that no ordering precedes. -/
def defaultOrder (offset : Option Scalar) : List Piece :=
  if offset.isSome then [.newline, .text "ORDER BY (SELECT 1)"] else []

/-- What stands for a missing limit before an offset. -/
def unlimitedText (style : NameStyle) (limit offset : Option Scalar) : List Piece :=
  match limit, offset, style.dialect.unlimited? with
  | none, some _, some all => [.newline, .text ("LIMIT " ++ all)]
  | _, _, _ => []

mutual

/-- The pieces of a scalar where it stands. -/
def Scalar.render (style : NameStyle) : Scalar → Written
  | ⟨node, type, mapping, isCondition, asValue⟩ =>
    if style.dialect.hasBooleanValues then node.render style type mapping
    else if isCondition && asValue then do
      let ifTrue ← boolLiteral mapping true
      let ifFalse ← boolLiteral mapping false
      return conditionAsValue (← node.render style type mapping) ifTrue ifFalse
    else if !isCondition && !asValue && type.kind == .bool then do
      let value ← node.render style type mapping
      return value ++ [.text (" = " ++ (← boolLiteral mapping true))]
    else node.render style type mapping

/-- The pieces of a node. -/
def Node.render (style : NameStyle) (type : DataType) (mapping : Option TypeMapping) : Node → Written
  | .column table name => .ok [.text (style.write table ++ "." ++ style.write name)]
  | .constant value => do return [.text (← constantText mapping value)]
  | .parameter name => .ok [.parameter ⟨name, style.placeholder name, mapping, type.nullable⟩]
  | .binary op left right => do
    if op = .coalesce then
      let l ← left.render style
      let r ← right.render style
      return .text "COALESCE(" :: l ++ .text ", " :: r ++ [.text ")"]
    else
      let l ← left.render style
      let r ← right.render style
      return parenthesize left.node.isInfix l ++ .text (operatorText style op type.kind)
        :: parenthesize right.node.isInfix r
  | .not operand => do
    return .text "NOT (" :: (← operand.render style) ++ [.text ")"]
  | .negate operand => do
    return .text "-" :: parenthesize operand.node.isInfix (← operand.render style)
  | .isNull operand negated => do
    return parenthesize operand.node.isInfix (← operand.render style)
      ++ [.text (if negated then " IS NOT NULL" else " IS NULL")]
  | .function name schema receiver args => do
    let owner ← renderOption style [] receiver [.text "."]
    let args ← renderArgs style args
    let space := match schema with
      | some schema => [Piece.text (style.write schema ++ ".")]
      | none => []
    return space ++ owner ++ .text (name ++ "(") :: args ++ [.text ")"]
  | .case branches otherwise => do
    let branches ← renderBranches style branches
    let otherwise ← renderOption style [.newline, .text "ELSE "] otherwise []
    return [.text "CASE", .indent] ++ branches ++ otherwise ++ [.dedent, .newline, .text "END"]
  | .existsIn subquery negated => do
    let inner ← subquery.render style
    return .text (if negated then "NOT EXISTS (" else "EXISTS (") :: .newline :: .indent :: inner
      ++ [.dedent, .newline, .text ")"]
  | .like subject pattern escape => do
    let subject ← subject.render style
    let pattern ← pattern.render style
    let escape ← renderOption style [.text " ESCAPE "] escape []
    return subject ++ .text " LIKE " :: pattern ++ escape
  | .cast operand =>
    match mapping with
    | some m => do
      return .text "CAST(" :: (← operand.render style) ++ [.text (" AS " ++ m.storeType ++ ")")]
    | none => .error (.bug "cast without a target type mapping")
  | .fragment sql => .ok [.text sql]

/-- The pieces of a scalar between others, or none if it is missing. -/
def renderOption (style : NameStyle) (before : List Piece) (s : Option Scalar)
    (after : List Piece) : Written :=
  match s with
  | none => .ok []
  | some s => do return before ++ (← s.render style) ++ after

/-- The pieces of arguments, with commas between them. -/
def renderArgs (style : NameStyle) : List Scalar → Written
  | [] => .ok []
  | [s] => s.render style
  | s :: rest => do
    let first ← s.render style
    return first ++ .text ", " :: (← renderArgs style rest)

/-- The pieces of the branches of a `CASE`, each on a line of its own. -/
def renderBranches (style : NameStyle) : List CaseBranch → Written
  | [] => .ok []
  | ⟨test, result⟩ :: rest => do
    let test ← test.render style
    let result ← result.render style
    return .newline :: .text "WHEN " :: test ++ .text " THEN " :: result
      ++ (← renderBranches style rest)

/-- The pieces of a select. -/
def Select.render (style : NameStyle) : Select → Written
  | ⟨tables, projection, _, predicate, orderings, limit, offset, distinct⟩ => do
    let pagination := style.dialect.pagination
    let top ←
      if pagination = .top ∧ offset.isNone then
        renderOption style [.text "TOP("] limit [.text ") "]
      else pure []
    let columns ← renderColumns style projection
    let sources ← renderTables style tables
    let condition ← renderOption style [.newline, .text "WHERE "] predicate []
    let keys ← renderKeys style orderings
    let order :=
      if !orderings.isEmpty then [.newline, .text "ORDER BY "] ++ keys
      else if pagination = .limitOffset then []
      else defaultOrder offset
    let paging ←
      if pagination = .limitOffset then do
        let most ← renderOption style [.newline, .text "LIMIT "] limit []
        let most := most ++ unlimitedText style limit offset
        let before := if most.isEmpty then Piece.newline else Piece.text " "
        pure (most ++ (← renderOption style [before, .text "OFFSET "] offset []))
      else if offset.isSome then do
        let skipped ← renderOption style [.newline, .text "OFFSET "] offset [.text " ROWS"]
        pure (skipped
          ++ (← renderOption style [.text " FETCH NEXT "] limit [.text " ROWS ONLY"]))
      else if pagination = .fetch then
        renderOption style [.newline, .text "FETCH FIRST "] limit [.text " ROWS ONLY"]
      else pure []
    return .text "SELECT " :: (if distinct then [.text "DISTINCT "] else []) ++ top
      ++ (if projection.isEmpty then [.text "1"] else columns)
      ++ (if tables.isEmpty then [] else [.newline, .text "FROM "] ++ sources)
      ++ condition ++ order ++ paging

/-- The pieces of projected columns, with commas between them. -/
def renderColumns (style : NameStyle) : List OutputColumn → Written
  | [] => .ok []
  | [⟨s, aliasName⟩] => do return (← s.render style) ++ outputAlias style s aliasName
  | ⟨s, aliasName⟩ :: rest => do
    let first ← s.render style
    return first ++ outputAlias style s aliasName ++ .text ", " :: (← renderColumns style rest)

/-- The pieces of sources of rows, each on a line of its own. -/
def renderTables (style : NameStyle) : List TableSource → Written
  | [] => .ok []
  | .table name schema aliasName :: rest => do
    let others ← renderTables style rest
    return .text (style.writeQualified name schema) :: aliasText style aliasName
      ++ (if rest.isEmpty then [] else .newline :: others)
  | .subquery select aliasName :: rest => do
    let inner ← select.render style
    let others ← renderTables style rest
    return [.text "(", .newline, .indent] ++ inner ++ [.dedent, .newline, .text ")"]
      ++ aliasText style aliasName ++ (if rest.isEmpty then [] else .newline :: others)

/-- The pieces of the keys of an ordering, with commas between them. -/
def renderKeys (style : NameStyle) : List SortKey → Written
  | [] => .ok []
  | ⟨s, ascending⟩ :: rest => do
    let key ← s.render style
    let others ← renderKeys style rest
    return key ++ (if ascending then [] else [.text " DESC"])
      ++ (if rest.isEmpty then [] else .text ", " :: others)

end

/-- The command that a select is written as. -/
def Select.toCommand (style : NameStyle) (s : Select) : Except Diagnostic Command := do
  return Command.ofPieces (← s.render style)

end QueryPipeline.Sql
