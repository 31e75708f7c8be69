import Mathlib.Tactic.Common
import QueryPipeline.Sql.Rendering

/-!
# Phrases of a statement

A scalar is written as a phrase. The phrase says what stands in the text: where parentheses are, where a
condition has become a `CASE`, and where a truth value is compared with `true`. What a scalar is written as is
just what its phrase is written as, so whatever is shown of phrases is shown of the text.
-/

set_option autoImplicit false

namespace QueryPipeline.Sql

mutual

/-- An expression of a statement as it is written. -/
inductive Phrase where
  | column (table name : String)
  | constant (mapping : Option TypeMapping) (value : Literal)
  | parameter (name : String) (mapping : Option TypeMapping) (nullable : Bool)
  /-- Two operands with an operator between them. -/
  | binary (op : ScalarOp) (kind : DataKind) (left right : Phrase)
  | coalesce (left right : Phrase)
  /-- The operand of `NOT` stands in parentheses. -/
  | not (operand : Phrase)
  | negate (operand : Phrase)
  | isNull (operand : Phrase) (negated : Bool)
  | function (isPredicate : Bool) (name : String) (schema : Option String) (receiver : Option Phrase)
      (args : List Phrase)
  | case (branches : List PhraseBranch) (otherwise : Option Phrase)
  | existsIn (subquery : Select) (negated : Bool)
  | like (subject pattern : Phrase) (escape : Option Phrase)
  | cast (operand : Phrase) (mapping : Option TypeMapping)
  | fragment (sql : String)
  /-- A phrase in parentheses. -/
  | parens (inner : Phrase)
  /-- A condition as a value: `CASE WHEN .. THEN true ELSE false END`. -/
  | truthOf (condition : Phrase) (mapping : Option TypeMapping)
  /-- A truth value as a condition: it is compared with `true`. -/
  | isTrue (value : Phrase) (mapping : Option TypeMapping)

/-- A branch of a `CASE` as it is written. -/
inductive PhraseBranch where
  | mk (test result : Phrase)

end

/-- The phrase in parentheses, if they are needed. -/
def Phrase.bracket (needed : Bool) (p : Phrase) : Phrase := if needed then .parens p else p

mutual

/-- The phrase of a scalar, for a database where conditions are values or for one where they are not. -/
def Scalar.phrase (booleans : Bool) : Scalar → Phrase
  | ⟨node, type, mapping, isCondition, asValue⟩ =>
    if booleans then node.phrase booleans type mapping isCondition
    else if isCondition && asValue then
      .truthOf (node.phrase booleans type mapping isCondition) mapping
    else if !isCondition && !asValue && type.kind == .bool then
      .isTrue (node.phrase booleans type mapping isCondition) mapping
    else node.phrase booleans type mapping isCondition

/-- The phrase of a node. -/
def Node.phrase (booleans : Bool) (type : DataType) (mapping : Option TypeMapping)
    (isCondition : Bool) : Node → Phrase
  | .column table name => .column table name
  | .constant value => .constant mapping value
  | .parameter name => .parameter name mapping type.nullable
  | .binary op left right =>
    if op = .coalesce then .coalesce (left.phrase booleans) (right.phrase booleans)
    else .binary op type.kind ((left.phrase booleans).bracket left.node.isInfix)
      ((right.phrase booleans).bracket right.node.isInfix)
  | .not operand => .not (operand.phrase booleans)
  | .negate operand => .negate ((operand.phrase booleans).bracket operand.node.isInfix)
  | .isNull operand negated =>
    .isNull ((operand.phrase booleans).bracket operand.node.isInfix) negated
  | .function name schema receiver args =>
    .function isCondition name schema (optionPhrase booleans receiver) (listPhrases booleans args)
  | .case branches otherwise =>
    .case (branchPhrases booleans branches) (optionPhrase booleans otherwise)
  | .existsIn subquery negated => .existsIn subquery negated
  | .like subject pattern escape =>
    .like (subject.phrase booleans) (pattern.phrase booleans) (optionPhrase booleans escape)
  | .cast operand => .cast (operand.phrase booleans) mapping
  | .fragment sql => .fragment sql

/-- The phrase of a scalar that may be missing. -/
def optionPhrase (booleans : Bool) : Option Scalar → Option Phrase
  | none => none
  | some s => some (s.phrase booleans)

/-- The phrases of some scalars. -/
def listPhrases (booleans : Bool) : List Scalar → List Phrase
  | [] => []
  | s :: rest => s.phrase booleans :: listPhrases booleans rest

/-- The phrases of the branches of a `CASE`. -/
def branchPhrases (booleans : Bool) : List CaseBranch → List PhraseBranch
  | [] => []
  | ⟨test, result⟩ :: rest => ⟨test.phrase booleans, result.phrase booleans⟩ :: branchPhrases booleans rest

end

mutual

/-- The pieces of a phrase. -/
def Phrase.render (style : NameStyle) : Phrase → Written
  | .column table name => .ok [.text (style.write table ++ "." ++ style.write name)]
  | .constant mapping value => do return [.text (← constantText mapping value)]
  | .parameter name mapping nullable =>
    .ok [.parameter ⟨name, style.placeholder name, mapping, nullable⟩]
  | .binary op kind left right => do
    let l ← left.render style
    let r ← right.render style
    return l ++ .text (operatorText style op kind) :: r
  | .coalesce left right => do
    let l ← left.render style
    let r ← right.render style
    return .text "COALESCE(" :: l ++ .text ", " :: r ++ [.text ")"]
  | .not operand => do return .text "NOT (" :: (← operand.render style) ++ [.text ")"]
  | .negate operand => do return .text "-" :: (← operand.render style)
  | .isNull operand negated => do
    return (← operand.render style) ++ [.text (if negated then " IS NOT NULL" else " IS NULL")]
  | .function _ name schema receiver args => do
    let owner ← renderPresent style [] receiver [.text "."]
    let args ← renderArguments style args
    let space := match schema with
      | some schema => [Piece.text (style.write schema ++ ".")]
      | none => []
    return space ++ owner ++ .text (name ++ "(") :: args ++ [.text ")"]
  | .case branches otherwise => do
    let branches ← renderCases style branches
    let otherwise ← renderPresent style [.newline, .text "ELSE "] otherwise []
    return [.text "CASE", .indent] ++ branches ++ otherwise ++ [.dedent, .newline, .text "END"]
  | .existsIn subquery negated => do
    let inner ← subquery.render style
    return .text (if negated then "NOT EXISTS (" else "EXISTS (") :: .newline :: .indent :: inner
      ++ [.dedent, .newline, .text ")"]
  | .like subject pattern escape => do
    let subject ← subject.render style
    let pattern ← pattern.render style
    let escape ← renderPresent style [.text " ESCAPE "] escape []
    return subject ++ .text " LIKE " :: pattern ++ escape
  | .cast operand mapping =>
    match mapping with
    | some m => do
      return .text "CAST(" :: (← operand.render style) ++ [.text (" AS " ++ m.storeType ++ ")")]
    | none => .error (.bug "cast without a target type mapping")
  | .fragment sql => .ok [.text sql]
  | .parens inner => do return .text "(" :: (← inner.render style) ++ [.text ")"]
  | .truthOf condition mapping => do
    let ifTrue ← boolLiteral mapping true
    let ifFalse ← boolLiteral mapping false
    return conditionAsValue (← condition.render style) ifTrue ifFalse
  | .isTrue value mapping => do
    let value ← value.render style
    return value ++ [.text (" = " ++ (← boolLiteral mapping true))]

/-- The pieces of a phrase between others, or none if it is missing. -/
def renderPresent (style : NameStyle) (before : List Piece) (p : Option Phrase)
    (after : List Piece) : Written :=
  match p with
  | none => .ok []
  | some p => do return before ++ (← p.render style) ++ after

/-- The pieces of arguments, with commas between them. -/
def renderArguments (style : NameStyle) : List Phrase → Written
  | [] => .ok []
  | [p] => p.render style
  | p :: rest => do
    let first ← p.render style
    return first ++ .text ", " :: (← renderArguments style rest)

/-- The pieces of the branches of a `CASE`, each on a line of its own. -/
def renderCases (style : NameStyle) : List PhraseBranch → Written
  | [] => .ok []
  | ⟨test, result⟩ :: rest => do
    let test ← test.render style
    let result ← result.render style
    return .newline :: .text "WHEN " :: test ++ .text " THEN " :: result
      ++ (← renderCases style rest)

end

section Agreement

variable {style : NameStyle}

/-- A phrase in brackets is written as the phrase, with brackets around it if they are needed. -/
theorem Phrase.render_bracket (needed : Bool) (p : Phrase) :
    (p.bracket needed).render style = (p.render style).map (parenthesize needed) := by
  cases needed with
  | false =>
    show p.render style = _
    cases p.render style <;> rfl
  | true => rfl

mutual

/-- A scalar is written as its phrase is. -/
theorem Scalar.render_eq : ∀ s : Scalar,
    s.render style = (s.phrase style.dialect.hasBooleanValues).render style
  | ⟨node, type, mapping, isCondition, asValue⟩ => by
    have hnode := Node.render_eq type mapping isCondition node
    rw [Scalar.render, Scalar.phrase]
    split
    · exact hnode
    · split
      · rw [Phrase.render, hnode]
      · split
        · rw [Phrase.render, hnode]
        · exact hnode

/-- A node is written as its phrase. -/
theorem Node.render_eq (type : DataType) (mapping : Option TypeMapping) (isCondition : Bool) :
    ∀ n : Node, n.render style type mapping =
      (n.phrase style.dialect.hasBooleanValues type mapping isCondition).render style
  | .column _ _ | .constant _ | .parameter _ | .existsIn _ _ | .fragment _ => rfl
  | .binary op left right => by
    have hl := Scalar.render_eq left
    have hr := Scalar.render_eq right
    rw [Node.render, Node.phrase]
    split
    · rw [Phrase.render, hl, hr]
    · rw [Phrase.render, Phrase.render_bracket, Phrase.render_bracket, ← hl, ← hr]
      cases left.render style with
      | error _ => rfl
      | ok l => cases right.render style <;> rfl
  | .not operand => by rw [Node.render, Node.phrase, Phrase.render, Scalar.render_eq operand]
  | .negate operand => by
    rw [Node.render, Node.phrase, Phrase.render, Phrase.render_bracket, ← Scalar.render_eq operand]
    cases operand.render style <;> rfl
  | .isNull operand negated => by
    rw [Node.render, Node.phrase, Phrase.render, Phrase.render_bracket, ← Scalar.render_eq operand]
    cases operand.render style <;> rfl
  | .function name schema receiver args => by
    have howner := renderOption_eq [] [.text "."] receiver
    have hargs := renderArgs_eq args
    cases schema <;> rw [Node.render, Node.phrase, Phrase.render, howner, hargs]
  | .case branches otherwise => by
    rw [Node.render, Node.phrase, Phrase.render, renderBranches_eq, renderOption_eq]
  | .like subject pattern escape => by
    rw [Node.render, Node.phrase, Phrase.render, Scalar.render_eq subject, Scalar.render_eq pattern,
      renderOption_eq]
  | .cast operand => by
    have hoperand := Scalar.render_eq operand
    cases mapping <;> simp only [Node.render, Node.phrase, Phrase.render, hoperand]

/-- A scalar that may be missing is written as its phrase. -/
theorem renderOption_eq (before after : List Piece) : ∀ s : Option Scalar,
    renderOption style before s after =
      renderPresent style before (optionPhrase style.dialect.hasBooleanValues s) after
  | none => rfl
  | some s => by rw [renderOption, optionPhrase, renderPresent, Scalar.render_eq s]

/-- Arguments are written as their phrases. -/
theorem renderArgs_eq : ∀ ss : List Scalar,
    renderArgs style ss = renderArguments style (listPhrases style.dialect.hasBooleanValues ss)
  | [] => rfl
  | [s] => Scalar.render_eq s
  | s :: next :: rest => by
    have hrest := renderArgs_eq (next :: rest)
    rw [renderArgs, Scalar.render_eq s, hrest]
    · rfl
    · exact nofun

/-- The branches of a `CASE` are written as their phrases. -/
theorem renderBranches_eq : ∀ bs : List CaseBranch,
    renderBranches style bs = renderCases style (branchPhrases style.dialect.hasBooleanValues bs)
  | [] => rfl
  | ⟨test, result⟩ :: rest => by
    rw [renderBranches, branchPhrases, renderCases, Scalar.render_eq test, Scalar.render_eq result,
      renderBranches_eq rest]

end

end Agreement

end QueryPipeline.Sql
