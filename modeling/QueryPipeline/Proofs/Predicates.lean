import QueryPipeline.Proofs.Coercion
import QueryPipeline.Proofs.Nodes
import QueryPipeline.Proofs.Translation

/-!
# Predicates with and without boolean values

Only the operators at the end of a pipeline ask whether a select has rows, and they do it in a select that
reads no source. So the predicate of a select that reads rows asks about no other select, and what it
selects is decided by the row alone. As it is written for a database without boolean values, it selects the
rows that it selects as it is written for one with them, except where it makes a value of a condition that
is unknown.
-/

set_option autoImplicit false

namespace QueryPipeline

open Sql

namespace Sql

/-- A scalar asks about no select, if it stands next to some sources. -/
def Scalar.IsPlainOver (tables : List TableSource) (s : Scalar) : Prop :=
  tables ≠ [] → ∀ part ∈ s.parts, ∀ inner negated, part.node ≠ .existsIn inner negated

/-- A question about a select stands next to no source, and the selects within the one that it is about have
plain scalars. -/
def Node.AsksAlone (tables : List TableSource) (n : Node) : Prop :=
  ∀ inner negated, n = .existsIn inner negated → tables = [] ∧ inner.AllHold Scalar.IsPlainOver

/-- What a node asks with the rows of some tables has to do with nothing but the selects in it. -/
theorem asksAlone_onReferences (tables : List TableSource) : OnReferences (Node.AsksAlone tables) where
  free h := by
    rintro inner negated rfl
    cases h
  withMapping _ h inner negated hnode := h inner negated (Node.eq_of_withMapping hnode nofun nofun nofun)

/-- A scalar asks with the rows of some tables alone when all of its nodes do. -/
theorem Scalar.isPlainOver_of_allNodes {tables : List TableSource} {s : Scalar}
    (h : s.AllNodes (Node.AsksAlone tables)) : s.IsPlainOver tables :=
  fun hsources part hpart inner negated hnode => hsources (h part hpart inner negated hnode).1

end Sql

variable {env : Environment}

/-- Operators keep scalars plain. -/
theorem asksAlone_kept (env : Environment) :
    Kept env Scalar.IsPlainOver (fun tables s => s.AllNodes (Node.AsksAlone tables))
      (fun tables s => s.AllNodes (Node.AsksAlone tables)) := by
  refine .ofNodes env asksAlone_onReferences (fun h => Scalar.isPlainOver_of_allNodes h)
    (fun h => (h _ _ rfl).2) ?_ ?_
  · rintro d s s' ⟨_, _, _, _, _, rfl⟩
    exact Scalar.all_of_leaf (fun _ _ => nofun) rfl
  · rintro inner negated h _ _ ⟨⟩
    exact ⟨rfl, h⟩

/-- The selects that a pipeline becomes ask about no other select where they read rows. -/
theorem lower_isPlainOver {model : Model} {options : Options} {query : Query} {shaped : ShapedQuery}
    (h : (Compiler.new model options).lower query = .ok shaped) :
    shaped.select.AllHold Scalar.IsPlainOver := by
  obtain ⟨entity, q, -, hsteps, rfl⟩ :=
    @Environment.lower_steps _ (fun _ => True) _ _ (Compiler.lower_eq_ok h) fun _ _ => trivial
  have hkept := asksAlone_kept (Compiler.new model options).environment
  have hclosed := fun tables => (asksAlone_onReferences tables).closed
    (Compiler.new model options).environment.catalog
  have hbodies : BodiesKept (Compiler.new model options).environment (fun _ => True) _ _ :=
    .ofWeaker hclosed (fun P hP => hP.ofDialect_keep options.dialect)
      fun _ _ hs part hpart inner negated hnode => ⟨rfl, (hs part hpart inner negated hnode).2⟩
  have hstart : ((Compiler.new model options).environment.startQuery entity).draft.Holds
      Scalar.IsPlainOver fun tables s => s.AllNodes (Node.AsksAlone tables) :=
    Environment.startQuery_holds fun _ _ => Scalar.all_of_leaf (fun _ _ => nofun) rfl
  exact (hkept.steps hbodies hstart rfl hsteps).finish hkept

/-- The predicate of a select that reads rows asks about no other select, and as it is written for a
database without boolean values, it is true over a row just when it is true as it is written for a database
with them. The conditions and truth values in it are true, false or unknown over the row, and no condition
that stands for a value is unknown, except where only its truth counts. -/
theorem coercion_selects_same_rows {V : Type} [DecidableEq V] (model : Model) (options : Options)
    (query : Query) (shaped : ShapedQuery) (h : (Compiler.new model options).lower query = .ok shaped)
    (select : Select) (hselect : select.Within shaped.select) (hsources : select.tables ≠ [])
    (predicate : Scalar) (hpredicate : predicate ∈ select.predicate) (I : Interpretation V)
    (hI : I.ThreeValued) (db : Database V) (ρ : Bindings V)
    (htruth : predicate.HasTruthValues I db ρ) (hknown : predicate.isKnown I db ρ true = true)
    (coerced native : NameStyle) (hcoerced : coerced.dialect.hasBooleanValues = false)
    (hnative : native.dialect.hasBooleanValues = true) :
    (∀ part ∈ predicate.parts, ∀ inner negated, part.node ≠ .existsIn inner negated) ∧
      predicate.render coerced = (predicate.phrase false).render coerced ∧
      predicate.render native = (predicate.phrase true).render native ∧
      (I.truth ((predicate.phrase false).eval I db ρ) = some true ↔
        I.truth ((predicate.phrase true).eval I db ρ) = some true) := by
  refine ⟨(lower_isPlainOver h select hselect).predicate predicate hpredicate hsources, ?_, ?_, ?_⟩
  · rw [predicate.render_eq, hcoerced]
  · rw [predicate.render_eq, hnative]
  · have hagree := predicate.agree_phrase_false hI true htruth hknown
    rw [hagree.truth, predicate.eval_phrase_true]

section Flags

/-- Both of two conditions. -/
def bothFlags (a b : Option Int) : Option Int :=
  if a = some 1 ∧ b = some 1 then some 1 else if a = some 0 ∨ b = some 0 then some 0 else none

/-- One of two conditions. -/
def eitherFlag (a b : Option Int) : Option Int :=
  if a = some 1 ∨ b = some 1 then some 1 else if a = some 0 ∧ b = some 0 then some 0 else none

/-- Whole numbers that may be absent, where one is true, zero is false and an absent number is unknown. Every
parameter is 40. -/
def Interpretation.flags : Interpretation (Option Int) :=
  { Interpretation.numbers with
    parameter := fun _ => some 40
    binary := fun
      | .and, a, b => bothFlags a b
      | .or, a, b => eitherFlag a b
      | op, a, b => Interpretation.numbers.binary op a b
    case := fun branches otherwise =>
      ((branches.find? (·.1 = some 1)).map (·.2)).getD otherwise.join
    truth := fun a => a.map (decide <| · = 1)
    truth_true := rfl
    truth_and := fun a b => by
      show (bothFlags a b).map _ = _ ↔ _
      unfold bothFlags
      split
      · simp_all
      · split <;> simp_all }

/-- Truth values as flags have three values, of which one is false. -/
theorem Interpretation.ThreeValued.flags : Interpretation.flags.ThreeValued where
  truth_false := rfl
  truth_null := rfl
  truth_or a b := by
    show (eitherFlag a b).map _ = _ ↔ a.map _ = _ ∨ b.map _ = _
    unfold eitherFlag
    split
    · simp_all
    · split <;> simp_all
  equal_true {v} h := by
    rcases h with ⟨_ | _, rfl⟩ | rfl <;> rfl
  truth_equal v := by
    cases v with
    | none => exact Iff.rfl
    | some a =>
      show some (decide ((decide (a = 1)).toInt = 1)) = some true ↔ some (decide (a = 1)) = some true
      by_cases h : a = 1 <;> simp [h]
  case_nil _ := rfl
  case_cons condition result rest otherwise := by
    show ((((condition, result) :: rest).find? _).map _).getD _ =
      if condition.map _ = some true then _ else ((rest.find? _).map _).getD _
    by_cases h : condition = some 1 <;> simp [h]

/-- The persons for whom it is not known whether they have the name that is asked for. -/
def Query.nameUnknown : Query :=
  ⟨"Person", [.filter ⟨"p", .binary .eq
    (.binary .eq (.access (.param "p") "name") (.parameter "wanted" (.of .text))) (.constant .null)⟩]⟩

/-- A row without a name is selected where conditions are values, and not where they are not. -/
theorem coercion_selects_other_rows :
    ∃ shaped predicate, (Compiler.new .persons .standard).lower .nameUnknown = .ok shaped ∧
      predicate ∈ shaped.select.predicate ∧ predicate.isBool = true ∧ Interpretation.flags.ThreeValued ∧
      predicate.HasTruthValues .flags personRows (fun _ _ => none) ∧
      ¬(Interpretation.flags.truth ((predicate.phrase false).eval .flags personRows fun _ _ => none) =
          some true ↔
        Interpretation.flags.truth ((predicate.phrase true).eval .flags personRows fun _ _ => none) =
          some true) := by
  obtain ⟨shaped, predicate, hlower, -, hpredicate, hcheck⟩ : ∃ shaped predicate,
      (Compiler.new .persons .standard).lower .nameUnknown = .ok shaped ∧ shaped.select.tables ≠ [] ∧
        predicate ∈ shaped.select.predicate ∧ decide (predicate.isBool = true ∧
          predicate.HasTruthValues .flags personRows (fun _ _ => none) ∧
          ¬(Interpretation.flags.truth ((predicate.phrase false).eval .flags personRows fun _ _ => none) =
              some true ↔
            Interpretation.flags.truth ((predicate.phrase true).eval .flags personRows fun _ _ => none) =
              some true)) = true :=
    exists_predicate (by decide +kernel)
  obtain ⟨hbool, htruth, hdiffers⟩ := of_decide_eq_true hcheck
  exact ⟨shaped, predicate, hlower, hpredicate, hbool, .flags, htruth, hdiffers⟩

/-- A row with a name is selected where conditions are values just when it is where they are not. -/
theorem nameUnknown_selects_same_rows :
    ∃ shaped predicate, (Compiler.new .persons .standard).lower .nameUnknown = .ok shaped ∧
      predicate ∈ shaped.select.predicate ∧
      predicate.HasTruthValues .flags personRows (fun _ _ => some 40) ∧
      predicate.isKnown .flags personRows (fun _ _ => some 40) true = true ∧
      (Interpretation.flags.truth ((predicate.phrase false).eval .flags personRows fun _ _ => some 40) =
          some true ↔
        Interpretation.flags.truth ((predicate.phrase true).eval .flags personRows fun _ _ => some 40) =
          some true) := by
  obtain ⟨shaped, predicate, hlower, hsources, hpredicate, hcheck⟩ : ∃ shaped predicate,
      (Compiler.new .persons .standard).lower .nameUnknown = .ok shaped ∧ shaped.select.tables ≠ [] ∧
        predicate ∈ shaped.select.predicate ∧ decide (
          predicate.HasTruthValues .flags personRows (fun _ _ => some 40) ∧
          predicate.isKnown .flags personRows (fun _ _ => some 40) true = true) = true :=
    exists_predicate (by decide +kernel)
  obtain ⟨htruth, hknown⟩ := of_decide_eq_true hcheck
  obtain ⟨-, -, -, hsame⟩ := coercion_selects_same_rows .persons .standard .nameUnknown shaped hlower
    shaped.select .refl hsources predicate hpredicate .flags .flags personRows (fun _ _ => some 40) htruth
    hknown ⟨.sqlite, .whenNeeded⟩ ⟨.generic, .whenNeeded⟩ rfl rfl
  exact ⟨shaped, predicate, hlower, hpredicate, htruth, hknown, hsame⟩

end Flags

end QueryPipeline
