import QueryPipeline.Model
import QueryPipeline.Proofs.Interpretation
import QueryPipeline.Proofs.Subexpressions
import QueryPipeline.Query.Basic

/-!
# What pipelines mean

The meaning of a pipeline on lists, without any statement in between. A pipeline starts from the list of the
entities in a table, and every operator makes a list out of the list before it. Each element carries the keys
that it is ordered by: an ordering replaces the keys or adds one, and only operators that look at positions,
and the end of the pipeline, bring the list into the order of its keys. Leaving out repetitions forgets the
keys. An operator gives nothing when its function gives no value for one of the elements.
-/

set_option autoImplicit false

namespace QueryPipeline

open Sql

/-- An element of a list, or a part of one: a value, or an entity or shape with its members in order. What
cannot be computed is missing. -/
inductive Datum (V : Type) where
  | missing
  | value (v : V)
  | record (members : List (String × Datum V))

namespace Datum

section Equality

variable {V : Type} [DecidableEq V]

mutual

/-- Two data have the same form and content. -/
def same : Datum V → Datum V → Bool
  | missing, missing => true
  | value a, value b => a = b
  | record ms, record ms' => sameMembers ms ms'
  | _, _ => false

/-- Two lists have the same members in the same order. -/
def sameMembers : List (String × Datum V) → List (String × Datum V) → Bool
  | [], [] => true
  | (name, d) :: rest, (name', d') :: rest' => name == name' && same d d' && sameMembers rest rest'
  | _, _ => false

end

mutual

/-- The comparison of what expressions mean decides their equality. -/
theorem same_iff_eq : ∀ d d' : Datum V, same d d' = true ↔ d = d'
  | missing, d' => by cases d' <;> simp [same]
  | value _, d' => by cases d' <;> simp [same]
  | record ms, d' => by
    cases d' with
    | record ms' => simp [same, sameMembers_iff_eq ms ms']
    | _ => simp [same]

/-- The comparison of the members of objects decides their equality. -/
theorem sameMembers_iff_eq : ∀ ms ms' : List (String × Datum V), sameMembers ms ms' = true ↔ ms = ms'
  | [], ms' => by cases ms' <;> simp [sameMembers]
  | (name, d) :: rest, ms' => by
    cases ms' with
    | nil => simp [sameMembers]
    | cons m rest' =>
      obtain ⟨name', d'⟩ := m
      simp [sameMembers, same_iff_eq d d', sameMembers_iff_eq rest rest']

end

instance : DecidableEq (Datum V) := fun d d' => decidable_of_iff _ (same_iff_eq d d')

end Equality

variable {V W : Type}

/-- The datum is a value. -/
def isValue : Datum V → Bool
  | value _ => true
  | _ => false

mutual

/-- Nothing is missing in the datum. -/
def isComplete : Datum V → Bool
  | missing => false
  | value _ => true
  | record members => areComplete members

/-- Nothing is missing in the members. -/
def areComplete : List (String × Datum V) → Bool
  | [] => true
  | (_, d) :: rest => isComplete d && areComplete rest

end

/-- The first member with a name. -/
def member : Datum V → String → Datum V
  | record members, name => (members.lookup name).getD missing
  | _, _ => missing

/-- A function of a value. -/
def map (f : V → W) : Datum V → Datum W
  | value a => value (f a)
  | _ => missing

/-- A function of two values. -/
def map₂ (f : V → V → W) : Datum V → Datum V → Datum W
  | value a, value b => value (f a b)
  | _, _ => missing

/-- A function of three values. -/
def map₃ (f : V → V → V → W) : Datum V → Datum V → Datum V → Datum W
  | value a, value b, value c => value (f a b c)
  | _, _, _ => missing

end Datum

section Expressions

variable {V : Type} (I : Interpretation V) (param : String → Datum V) (leaf : MemberPath → Datum V)

mutual

/-- The meaning of an expression, from the meanings of its parameters and of the places of a row. A
comparison with null asks whether the other operand is absent. -/
def Expr.meaning : Expr → Datum V
  | .param name => param name
  | .constant value => .value (I.constant value)
  | .parameter name _ => .value (I.parameter name)
  | .member (some receiver) name => receiver.meaning.member name.name
  | .shape members => .record (membersMeaning members)
  | .binary op left right =>
    if (op = .eq ∨ op = .ne) ∧ left.isNull != right.isNull then
      (if right.isNull then left.meaning else right.meaning).map (I.isNull · (op = .ne))
    else
      match ScalarOp.ofBinaryOp? op with
      | some op => left.meaning.map₂ (I.binary op) right.meaning
      | none => .missing
  | .unary .not operand => operand.meaning.map I.not
  | .unary .negate operand => operand.meaning.map I.negate
  | .conditional test ifTrue ifFalse =>
    test.meaning.map₃ (fun t a b => I.case [(t, a)] (some b)) ifTrue.meaning ifFalse.meaning
  | .entity _ path => leaf path
  | .binding path _ => leaf path
  | .ensureNonEmpty inner => inner.meaning
  | .member none _ | .call .. | .convert .. => .missing

/-- The meanings of the members that have a name. -/
def membersMeaning : List ShapeMember → List (String × Datum V)
  | [] => []
  | ⟨some name, e⟩ :: rest => (name, e.meaning) :: membersMeaning rest
  | ⟨none, _⟩ :: rest => membersMeaning rest

end

end Expressions

/-- The parameter of a function stands for an argument. -/
def Lambda.bindParam {V : Type} (f : Lambda) (argument : Datum V) : String → Datum V :=
  fun name => if name = f.param then argument else .missing

/-- What a function makes of an argument. -/
def Lambda.meaning {V : Type} (I : Interpretation V) (f : Lambda) (argument : Datum V) : Datum V :=
  f.body.meaning I (f.bindParam argument) fun _ => .missing

/-- The meaning of an expression without parameters. -/
def Expr.closedMeaning {V : Type} (I : Interpretation V) (e : Expr) : Datum V :=
  e.meaning I (fun _ => .missing) fun _ => .missing

/-- The entity that a row of its table holds. -/
def EntityType.datum {V : Type} (e : EntityType) (row : String → V) : Datum V :=
  .record (e.properties.map fun p => (p.name, .value (row p.columnName)))

/-- Elements with the keys that they are ordered by. -/
abbrev Sequence (V : Type) := List (Datum V × List (KeyValue V))

namespace Sequence

variable {V : Type} (I : Interpretation V)

/-- The value that a datum is; any other datum counts as the absence of one. -/
def valueOf : Datum V → V
  | .value v => v
  | _ => I.constant .null

/-- The sequence in the order of its keys. -/
def sorted (s : Sequence V) : Sequence V := I.sortOn (·.2) s

/-- The elements that a function is true of. -/
def restrict (f : Datum V → Datum V) (s : Sequence V) : Sequence V :=
  s.filter fun r => I.holds (valueOf I (f r.1))

/-- What a function makes of the elements, in the order of the keys that these had. -/
def select (f : Datum V → Datum V) (s : Sequence V) : Sequence V := s.map fun r => (f r.1, r.2)

/-- The elements ordered by a function alone. -/
def orderBy (f : Datum V → Datum V) (ascending : Bool) (s : Sequence V) : Sequence V :=
  s.map fun r => (r.1, [⟨valueOf I (f r.1), ascending⟩])

/-- The elements ordered by a function where the keys so far are equal. -/
def thenBy (f : Datum V → Datum V) (ascending : Bool) (s : Sequence V) : Sequence V :=
  s.map fun r => (r.1, r.2 ++ [⟨valueOf I (f r.1), ascending⟩])

/-- The elements without so many at the front. -/
def skip (count : Nat) (s : Sequence V) : Sequence V := List.drop count (s.sorted I)

/-- The elements at the front, so many of them. -/
def take (count : Nat) (s : Sequence V) : Sequence V := List.take count (s.sorted I)

/-- The first occurrence of every element, without keys. -/
def makeDistinct [DecidableEq V] (s : Sequence V) : Sequence V :=
  (s.map (·.1)).eraseDups.map fun d => (d, [])

/-- The elements in the order of their keys. -/
def results (s : Sequence V) : List (Datum V) := (s.sorted I).map (·.1)

end Sequence

/-- What an operator makes of a sequence. It makes nothing of one when the meaning of its body is missing for
an element, or when lists do not have the operator. -/
def Operator.evaluate? {V : Type} [DecidableEq V] (I : Interpretation V) (s : Sequence V) :
    Operator → Option (Sequence V)
  | .filter f =>
    if s.all fun r => (f.meaning I r.1).isValue then some (s.restrict I (f.meaning I)) else none
  | .select f =>
    if s.all fun r => (f.meaning I r.1).isComplete then some (s.select (f.meaning I)) else none
  | .orderBy f descending =>
    if s.all fun r => (f.meaning I r.1).isValue then some (s.orderBy I (f.meaning I) !descending)
    else none
  | .thenBy f descending =>
    if s.all fun r => (f.meaning I r.1).isValue then some (s.thenBy I (f.meaning I) !descending)
    else none
  | .skip rows =>
    match rows.closedMeaning I with
    | .value n => some (s.skip I (I.count n))
    | _ => none
  | .take rows =>
    match rows.closedMeaning I with
    | .value n => some (s.take I (I.count n))
    | _ => none
  | .distinct => some s.makeDistinct
  | _ => none

/-- The results of a pipeline on the tables of a database. -/
def Query.evaluate? {V : Type} [DecidableEq V] (I : Interpretation V) (db : Database V) (model : Model)
    (q : Query) : Option (List (Datum V)) := do
  let entity ← model.findEntity? q.source
  let rows := (db entity.tableName entity.schema).map entity.datum
  let s ← q.operators.foldlM (fun s op => Operator.evaluate? I s op) (rows.map fun d => (d, []))
  return Sequence.results I s

/-- The form of a datum: which members it has, and where it has values. -/
abbrev Form := Datum Unit

/-- The interpretation by a single value, which gives data their forms. -/
def Interpretation.trivial : Interpretation Unit where
  constant _ := ()
  parameter _ := ()
  fragment _ := ()
  binary _ _ _ := ()
  not _ := ()
  negate _ := ()
  isNull _ _ := ()
  function _ _ _ _ := ()
  case _ _ := ()
  existsIn _ _ := ()
  like _ _ _ := ()
  cast _ := ()
  truth _ := some true
  compare _ _ := .eq
  count _ := 0
  truth_true := rfl
  truth_and _ _ := by simp
  compare_trans := { eq_swap := rfl, isLE_trans := fun _ _ => rfl }

/-- An expression calls no function, changes no type, and takes members of entities and shapes only. -/
def Expr.isAdmitted (param : String → Form) (leaf : MemberPath → Form) : Expr → Bool
  | .member (some receiver) _ => receiver.meaning .trivial param leaf ≠ .value ()
  | .member none _ | .call .. | .convert .. => false
  | _ => true

/-- A body of parameters, constants, members of entities and shapes, shapes with members of different names,
and operators. -/
def Expr.isPlain (param : String → Form) (e : Expr) : Bool :=
  e.hasDistinctMembers && e.everywhere fun part =>
    !part.isCompilerForm && part.isAdmitted param fun _ => .missing

/-- A function with such a body, of an argument of some form. -/
def Lambda.isPlain (form : Form) (f : Lambda) : Bool := f.body.isPlain (f.bindParam form)

/-- The form of the elements after an operator, if it is one of the operators on lists and has a plain
body. -/
def Operator.form? (form : Form) : Operator → Option Form
  | .filter f | .orderBy f _ | .thenBy f _ => if f.isPlain form then some form else none
  | .select f => if f.isPlain form then some (f.meaning .trivial form) else none
  | .skip rows | .take rows => if rows.isPlain fun _ => .missing then some form else none
  | .distinct => some form
  | _ => none

/-- A pipeline of operators on lists with plain bodies. -/
def Query.isPlain (model : Model) (q : Query) : Bool :=
  match model.findEntity? q.source with
  | some entity =>
    (q.operators.foldlM (fun form op => Operator.form? form op) (entity.datum fun _ => ())).isSome
  | none => false

end QueryPipeline
