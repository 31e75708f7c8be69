import QueryPipeline.Proofs.Contexts
import QueryPipeline.Proofs.Phrases

/-!
# Conditions and values apart

A database without boolean values tells conditions from values by their form, and takes a condition only
where one is expected, and a value only where a value is. `Phrase.Is` is the grammar of such a database: it
says of a phrase what it is, whatever the scalar that it was written for records about itself. A condition
becomes a value only by `CASE WHEN .. END`, and a truth value becomes a condition only by the comparison
with `true`. What a pipeline becomes follows this grammar everywhere.
-/

set_option autoImplicit false

namespace QueryPipeline

open Sql

namespace Sql

/-- What a place in a statement is for. -/
inductive Place where
  | condition
  | value

namespace PhraseBranch

/-- The condition under which a result is taken. -/
def test : PhraseBranch → Phrase
  | mk test _ => test

/-- The result that is taken. -/
def result : PhraseBranch → Phrase
  | mk _ result => result

end PhraseBranch

/-- What a phrase is, for a database that tells conditions from values. -/
inductive Phrase.Is : Place → Phrase → Prop
  | column (table name : String) : Is .value (.column table name)
  | constant (mapping : Option TypeMapping) (value : Literal) : Is .value (.constant mapping value)
  | parameter (name : String) (mapping : Option TypeMapping) (nullable : Bool) :
    Is .value (.parameter name mapping nullable)
  | fragment (sql : String) : Is .value (.fragment sql)
  | comparison {op : ScalarOp} {kind : DataKind} {left right : Phrase} (hop : op.isComparison = true)
    (hl : Is .value left) (hr : Is .value right) : Is .condition (.binary op kind left right)
  | logical {op : ScalarOp} {kind : DataKind} {left right : Phrase} (hop : op.isLogical = true)
    (hl : Is .condition left) (hr : Is .condition right) : Is .condition (.binary op kind left right)
  | arithmetic {op : ScalarOp} {kind : DataKind} {left right : Phrase}
    (hop : (op.isComparison || op.isLogical) = false) (hl : Is .value left) (hr : Is .value right) :
    Is .value (.binary op kind left right)
  | coalesce {left right : Phrase} (hl : Is .value left) (hr : Is .value right) :
    Is .value (.coalesce left right)
  | not {operand : Phrase} (h : Is .condition operand) : Is .condition (.not operand)
  | negate {operand : Phrase} (h : Is .value operand) : Is .value (.negate operand)
  | isNull {operand : Phrase} (negated : Bool) (h : Is .value operand) :
    Is .condition (.isNull operand negated)
  | search {isPredicate : Bool} {name : String} {schema : Option String} {receiver : Option Phrase}
    {args : List Phrase} (hname : isSearch name = true) (hreceiver : ∀ p ∈ receiver, Is .value p)
    (hargs : ∀ p ∈ args, Is .value p) :
    Is .condition (.function isPredicate name schema receiver args)
  | function {isPredicate : Bool} {name : String} {schema : Option String} {receiver : Option Phrase}
    {args : List Phrase} (hname : isSearch name = false) (hreceiver : ∀ p ∈ receiver, Is .value p)
    (hargs : ∀ p ∈ args, Is .value p) : Is .value (.function isPredicate name schema receiver args)
  | case {branches : List PhraseBranch} {otherwise : Option Phrase}
    (htests : ∀ b ∈ branches, Is .condition b.test) (hresults : ∀ b ∈ branches, Is .value b.result)
    (hotherwise : ∀ p ∈ otherwise, Is .value p) : Is .value (.case branches otherwise)
  | existsIn (subquery : Select) (negated : Bool) : Is .condition (.existsIn subquery negated)
  | like {subject pattern : Phrase} {escape : Option Phrase} (hsubject : Is .value subject)
    (hpattern : Is .value pattern) (hescape : ∀ p ∈ escape, Is .value p) :
    Is .condition (.like subject pattern escape)
  | cast {operand : Phrase} (mapping : Option TypeMapping) (h : Is .value operand) :
    Is .value (.cast operand mapping)
  | parens {place : Place} {inner : Phrase} (h : Is place inner) : Is place (.parens inner)
  | truthOf {condition : Phrase} (mapping : Option TypeMapping) (h : Is .condition condition) :
    Is .value (.truthOf condition mapping)
  | isTrue {value : Phrase} (mapping : Option TypeMapping) (h : Is .value value) :
    Is .condition (.isTrue value mapping)

/-- A phrase in brackets stands where the phrase may stand. -/
theorem Phrase.Is.bracket {place : Place} {p : Phrase} (h : p.Is place) (needed : Bool) :
    (p.bracket needed).Is place := by
  cases needed
  · exact h
  · exact .parens h

/-- The place where a scalar stands. -/
def Scalar.place (s : Scalar) : Place := if s.asValue then .value else .condition

/-- What a node is. -/
def Node.place (n : Node) : Place := if n.isConditionForm || n.isSearch then .condition else .value

/-- A scalar is in place, and the conditions that it has for operands are truth values. -/
structure Scalar.Fits (s : Scalar) : Prop where
  inPlace : s.InPlace
  bool : ∀ c ∈ s.node.conditions, c.isBool = true

section Written

variable {s : Scalar} (h : (s.asValue = false → s.isBool = true) → (s.phrase false).Is s.place)

include h

/-- The phrase of a scalar that stands for a value is one of a value. -/
theorem Phrase.Is.ofValue (hvalue : s.asValue = true) : (s.phrase false).Is .value := by
  rw [Scalar.place, hvalue] at h
  exact h nofun

/-- The phrase of a truth value that stands as a condition is one of a condition. -/
theorem Phrase.Is.ofCondition (hcondition : s.asValue = false ∧ s.isBool = true) :
    (s.phrase false).Is .condition := by
  rw [Scalar.place, hcondition.1] at h
  exact h fun _ => hcondition.2

end Written

mutual

/-- A scalar is written as what is expected where it stands. -/
theorem Scalar.phrase_is : ∀ s : Scalar, s.All Scalar.Fits → (s.asValue = false → s.isBool = true) →
    (s.phrase false).Is s.place
  | ⟨node, type, mapping, isCondition, asValue⟩ => fun h hbool => by
    obtain ⟨hself, hparts⟩ := Scalar.all_iff.1 h
    have hnode : (node.phrase false type mapping isCondition).Is node.place :=
      Node.phrase_is type mapping isCondition node hparts
        (fun c hc => ⟨hself.inPlace.conditions c hc, hself.bool c hc⟩) hself.inPlace.values
    have hform : isCondition = (node.isConditionForm || node.isSearch) := hself.inPlace.form
    rw [Node.place, ← hform] at hnode
    rw [Scalar.phrase, if_neg Bool.false_ne_true]
    -- what the node is and where the scalar stands decide between the two coercions and none
    cases isCondition with
    | true =>
      cases asValue with
      | true => exact .truthOf mapping hnode
      | false => exact hnode
    | false =>
      cases asValue with
      | true => exact hnode
      | false =>
        rw [show (type.kind == .bool) = true from hbool rfl]
        exact .isTrue mapping hnode

/-- A node is written as what it is. -/
theorem Node.phrase_is (type : DataType) (mapping : Option TypeMapping) (isCondition : Bool) :
    ∀ n : Node, (∀ part ∈ n.parts, part.Fits) →
      (∀ c ∈ n.conditions, c.asValue = false ∧ c.isBool = true) →
      (∀ v ∈ n.values, v.asValue = true) → (n.phrase false type mapping isCondition).Is n.place
  | .column table name => fun _ _ _ => .column table name
  | .constant value => fun _ _ _ => .constant mapping value
  | .parameter name => fun _ _ _ => .parameter name mapping type.nullable
  | .fragment sql => fun _ _ _ => .fragment sql
  | .existsIn inner negated => fun _ _ _ => .existsIn inner negated
  | .not operand => fun hparts hconditions _ =>
    .not (.ofCondition (operand.phrase_is hparts) (hconditions operand (List.mem_singleton_self _)))
  | .negate operand => fun hparts _ hvalues =>
    .negate (.bracket (.ofValue (operand.phrase_is hparts) (hvalues operand (List.mem_singleton_self _))) _)
  | .isNull operand negated => fun hparts _ hvalues =>
    .isNull negated
      (.bracket (.ofValue (operand.phrase_is hparts) (hvalues operand (List.mem_singleton_self _))) _)
  | .cast operand => fun hparts _ hvalues =>
    .cast mapping (.ofValue (operand.phrase_is hparts) (hvalues operand (List.mem_singleton_self _)))
  | .binary op left right => fun hparts hconditions hvalues => by
    obtain ⟨hl, hr⟩ := List.forall_mem_append.1 hparts
    have hl := left.phrase_is hl
    have hr := right.phrase_is hr
    rw [Node.phrase]
    cases hop : op.isLogical with
    | true =>
      obtain ⟨hleft, hright⟩ := (Node.forall_conditions_binary hop).1 hconditions
      rw [if_neg (by rintro rfl; cases hop), Node.place, Node.isConditionForm, hop, Bool.or_true]
      exact .logical hop (.bracket (.ofCondition hl hleft) _) (.bracket (.ofCondition hr hright) _)
    | false =>
      obtain ⟨hleft, hright⟩ := (Node.forall_values_binary hop).1 hvalues
      have hl := Phrase.Is.ofValue hl hleft
      have hr := Phrase.Is.ofValue hr hright
      split
      · rename_i hcoalesce
        rw [hcoalesce]
        exact .coalesce hl hr
      · rw [Node.place, Node.isConditionForm, hop, Bool.or_false]
        cases hcomparison : op.isComparison with
        | true => exact .comparison hcomparison (.bracket hl _) (.bracket hr _)
        | false => exact .arithmetic (by rw [hop, hcomparison]; rfl) (.bracket hl _) (.bracket hr _)
  | .function name schema receiver args => fun hparts _ hvalues => by
    obtain ⟨hreceiver, hargs⟩ := List.forall_mem_append.1 hparts
    obtain ⟨howner, hvalues⟩ := List.forall_mem_append.1 hvalues
    have hreceiver := optionPhrase_is receiver hreceiver (by simpa using howner)
    have hargs := listPhrases_is args hargs hvalues
    show Phrase.Is (if isSearch name then .condition else .value) _
    cases hname : isSearch name with
    | true => exact .search hname hreceiver hargs
    | false => exact .function hname hreceiver hargs
  | .case branches otherwise => fun hparts hconditions hvalues => by
    obtain ⟨hbranches, hotherwise⟩ := List.forall_mem_append.1 hparts
    obtain ⟨hresults, hrest⟩ := List.forall_mem_append.1 hvalues
    have hbranches := branchPhrases_is branches hbranches hconditions hresults
    exact .case (fun b hb => (hbranches b hb).1) (fun b hb => (hbranches b hb).2)
      (optionPhrase_is otherwise hotherwise (by simpa using hrest))
  | .like subject pattern escape => fun hparts _ hvalues => by
    obtain ⟨hparts, hescape⟩ := List.forall_mem_append.1 hparts
    obtain ⟨hsubject, hpattern⟩ := List.forall_mem_append.1 hparts
    obtain ⟨hs, hvalues⟩ := List.forall_mem_cons.1 hvalues
    obtain ⟨hp, hvalues⟩ := List.forall_mem_cons.1 hvalues
    exact .like (.ofValue (subject.phrase_is hsubject) hs) (.ofValue (pattern.phrase_is hpattern) hp)
      (optionPhrase_is escape hescape (by simpa using hvalues))

/-- The phrase of a value that may be missing is one of a value. -/
theorem optionPhrase_is : ∀ s : Option Scalar, (∀ part ∈ optionParts s, part.Fits) →
    (∀ v ∈ s, v.asValue = true) → ∀ p ∈ optionPhrase false s, p.Is .value
  | none => nofun
  | some s => fun hparts hvalue => by
    rintro _ ⟨⟩
    exact .ofValue (s.phrase_is hparts) (hvalue s rfl)

/-- The phrases of some values are ones of values. -/
theorem listPhrases_is : ∀ ss : List Scalar, (∀ part ∈ listParts ss, part.Fits) →
    (∀ v ∈ ss, v.asValue = true) → ∀ p ∈ listPhrases false ss, p.Is .value
  | [] => fun _ _ => List.forall_mem_nil _
  | s :: rest => fun hparts hvalues => by
    obtain ⟨hs, hrest⟩ := List.forall_mem_append.1 hparts
    obtain ⟨hvalue, hvalues⟩ := List.forall_mem_cons.1 hvalues
    exact List.forall_mem_cons.2
      ⟨.ofValue (s.phrase_is hs) hvalue, listPhrases_is rest hrest hvalues⟩

/-- In the branches of a `CASE`, the tests are phrases of conditions and the results phrases of values. -/
theorem branchPhrases_is : ∀ bs : List CaseBranch, (∀ part ∈ branchParts bs, part.Fits) →
    (∀ c ∈ bs.map (·.test), c.asValue = false ∧ c.isBool = true) →
    (∀ v ∈ bs.map (·.result), v.asValue = true) →
    ∀ b ∈ branchPhrases false bs, b.test.Is .condition ∧ b.result.Is .value
  | [] => fun _ _ _ => List.forall_mem_nil _
  | ⟨test, result⟩ :: rest => fun hparts htests hresults => by
    obtain ⟨hbranch, hrest⟩ := List.forall_mem_append.1 hparts
    obtain ⟨htest, hresult⟩ := List.forall_mem_append.1 hbranch
    obtain ⟨hcondition, htests⟩ := List.forall_mem_cons.1 htests
    obtain ⟨hvalue, hresults⟩ := List.forall_mem_cons.1 hresults
    exact List.forall_mem_cons.2
      ⟨⟨.ofCondition (test.phrase_is htest) hcondition, .ofValue (result.phrase_is hresult) hvalue⟩,
        branchPhrases_is rest hrest htests hresults⟩

end

/-- The predicate of a select is a truth value, and so are the conditions that its scalars have for
operands. -/
def Select.ConditionsAreBool (s : Select) : Prop :=
  (∀ e ∈ s.predicate, e.isBool = true) ∧
    ∀ whole ∈ s.scalars, ∀ part ∈ whole.parts, ∀ c ∈ part.node.conditions, c.isBool = true

instance (s : Select) : Decidable s.ConditionsAreBool :=
  inferInstanceAs (Decidable (_ ∧ _))

/-- What stands for a value in a select is one of its scalars. -/
theorem Select.mem_scalars_of_mem_values {s : Select} {v : Scalar} (hv : v ∈ s.values) : v ∈ s.scalars := by
  simp only [Select.values, Select.scalars, List.mem_append] at hv ⊢
  tauto

/-- A property that holds whatever the sources are holds of all scalars of a select. -/
theorem Select.Holds.scalar {p : Scalar → Prop} {s : Select} (h : s.Holds fun _ => p) {e : Scalar}
    (he : e ∈ s.scalars) : p e := by
  simp only [Select.scalars, List.mem_append, List.mem_map, Option.mem_toList] at he
  rcases he with (((⟨c, hc, rfl⟩ | he) | ⟨k, hk, rfl⟩) | he) | he
  · exact h.projection c hc
  · exact h.predicate e he
  · exact h.orderings k hk
  · exact h.limit e he
  · exact h.offset e he

end Sql

/-- The selects that a pipeline becomes keep conditions and values in their places. -/
theorem lower_placed {model : Model} {options : Options} {query : Query} {shaped : ShapedQuery}
    (h : (Compiler.new model options).lower query = .ok shaped)
    (hnames : ∀ e ∈ query.bodies, e.isUnqualified = true) :
    shaped.select.AllHold fun _ s => s.Placed := by
  obtain ⟨entity, q, -, hsteps, rfl⟩ := Environment.lower_steps (Compiler.lower_eq_ok h) hnames
  have hkept := set_kept (Compiler.new model options).environment
  have hstart : ((Compiler.new model options).environment.startQuery entity).draft.Holds
      (fun _ s => s.Placed) fun _ s => s.Set :=
    Environment.startQuery_holds fun _ _ => (Scalar.usable_leaf rfl _ _).set
  exact (hkept.steps (set_bodiesKept model options) hstart rfl hsteps).finish hkept

/-- In all selects of what a pipeline becomes, the predicate is written as a condition and all else as values,
for a database without boolean values. -/
theorem conditions_and_values_apart (model : Model) (options : Options) (query : Query)
    (shaped : ShapedQuery) (h : (Compiler.new model options).lower query = .ok shaped)
    (hnames : ∀ e ∈ query.bodies, e.isUnqualified = true) (select : Select)
    (hselect : select.Within shaped.select) (hbool : select.ConditionsAreBool) (style : NameStyle)
    (hstyle : style.dialect.hasBooleanValues = false) :
    (∀ e ∈ select.predicate,
      (e.phrase false).Is .condition ∧ e.render style = (e.phrase false).render style) ∧
    ∀ v ∈ select.values, (v.phrase false).Is .value ∧ v.render style = (v.phrase false).render style := by
  have hholds := lower_placed h hnames select hselect
  have hrender : ∀ s : Scalar, s.render style = (s.phrase false).render style := by
    intro s
    rw [s.render_eq, hstyle]
  have hphrase : ∀ s ∈ select.scalars, (s.asValue = false → s.isBool = true) →
      (s.phrase false).Is s.place := by
    intro s hs
    exact s.phrase_is fun part hpart => ⟨hholds.scalar hs part hpart, hbool.2 s hs part hpart⟩
  refine ⟨fun e he => ⟨?_, hrender e⟩, fun v hv => ⟨?_, hrender v⟩⟩
  · have hmem : e ∈ select.scalars := by
      simp [Select.scalars, show select.predicate = some e from he]
    exact .ofCondition (hphrase e hmem) ⟨hholds.context.predicate e he, hbool.1 e he⟩
  · exact .ofValue (hphrase v (Select.mem_scalars_of_mem_values hv)) (hholds.context.values v hv)

/-- Members of a club, who may be active and need not give a name. -/
def Model.members : Model :=
  ⟨[(EntityType.plain "Member").withProperty (.plain "id" .int32)
    |>.withProperty (.plain "name" (.optional .text)) |>.withProperty (.plain "active" .bool)]⟩

/-- The members who are active just when they have no name. -/
def Query.activeUnnamed : Query :=
  ⟨"Member", [.filter ⟨"m", .binary .eq (.access (.param "m") "active")
    (.binary .eq (.access (.param "m") "name") (.constant .null))⟩]⟩

/-- That a member has no name is written as a value where it is compared with another one. -/
theorem activeUnnamed_apart :
    ∃ shaped, (Compiler.new .members .standard).lower .activeUnnamed = .ok shaped ∧
      (∀ e ∈ Query.activeUnnamed.bodies, e.isUnqualified = true) ∧ shaped.select.ConditionsAreBool ∧
      (∀ e ∈ shaped.select.predicate, (e.phrase false).Is .condition ∧
        e.render ⟨.msSql, .whenNeeded⟩ = (e.phrase false).render ⟨.msSql, .whenNeeded⟩) ∧
      ∀ v ∈ shaped.select.values, (v.phrase false).Is .value ∧
        v.render ⟨.msSql, .whenNeeded⟩ = (v.phrase false).render ⟨.msSql, .whenNeeded⟩ := by
  have hnames : ∀ e ∈ Query.activeUnnamed.bodies, e.isUnqualified = true := by decide
  obtain ⟨shaped, h, hbool⟩ : ∃ shaped,
      (Compiler.new .members .standard).lower .activeUnnamed = .ok shaped ∧
        decide shaped.select.ConditionsAreBool = true := exists_of_any (by decide +kernel)
  have hbool := of_decide_eq_true hbool
  exact ⟨shaped, h, hnames, hbool, conditions_and_values_apart .members .standard .activeUnnamed shaped
    h hnames shaped.select .refl hbool ⟨.msSql, .whenNeeded⟩ rfl⟩

end QueryPipeline
