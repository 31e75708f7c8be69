import Mathlib.Data.Option.Basic
import QueryPipeline.Proofs.Evaluation
import QueryPipeline.Proofs.Parts
import QueryPipeline.Proofs.Phrases

/-!
# Conditions that stand for values

Where a database has no boolean values, a condition that stands for a value is written as a `CASE`, and a
truth value that stands for a condition is compared with `true`. The `CASE` is false where the condition is
unknown, so a predicate may select other rows than where conditions are values. It selects the same rows
where no such condition is unknown, or where it only counts whether the condition is true.
-/

set_option autoImplicit false

namespace QueryPipeline

open Sql

namespace Sql

section Evaluation

variable {V : Type} [DecidableEq V] (I : Interpretation V) (db : Database V)

mutual

/-- The value of a phrase. Parentheses do not count, a condition as a value is a `CASE`, and a truth value as
a condition is a comparison. -/
def Phrase.eval : Phrase → Bindings V → V
  | .column table name, ρ => ρ table name
  | .constant _ value, _ => I.constant value
  | .parameter name _ _, _ => I.parameter name
  | .binary op _ left right, ρ => I.binary op (left.eval ρ) (right.eval ρ)
  | .coalesce left right, ρ => I.binary .coalesce (left.eval ρ) (right.eval ρ)
  | .not operand, ρ => I.not (operand.eval ρ)
  | .negate operand, ρ => I.negate (operand.eval ρ)
  | .isNull operand negated, ρ => I.isNull (operand.eval ρ) negated
  | .function _ name schema receiver args, ρ =>
    I.function name schema (evalPresent receiver ρ) (evalPhrases args ρ)
  | .case branches otherwise, ρ => I.case (evalCases branches ρ) (evalPresent otherwise ρ)
  | .existsIn subquery negated, ρ => I.existsIn (!(subquery.rows I db ρ).isEmpty) negated
  | .like subject pattern escape, ρ =>
    I.like (subject.eval ρ) (pattern.eval ρ) (evalPresent escape ρ)
  | .cast operand _, ρ => I.cast (operand.eval ρ)
  | .fragment sql, _ => I.fragment sql
  | .parens inner, ρ => inner.eval ρ
  | .truthOf condition _, ρ =>
    I.case [(condition.eval ρ, I.constant (.boolean true))] (some (I.constant (.boolean false)))
  | .isTrue value _, ρ => I.binary .equal (value.eval ρ) (I.constant (.boolean true))

/-- The value of a phrase that may be missing. -/
def evalPresent : Option Phrase → Bindings V → Option V
  | none, _ => none
  | some p, ρ => some (p.eval ρ)

/-- The values of some phrases. -/
def evalPhrases : List Phrase → Bindings V → List V
  | [], _ => []
  | p :: rest, ρ => p.eval ρ :: evalPhrases rest ρ

/-- The values of the conditions and results of a `CASE`. -/
def evalCases : List PhraseBranch → Bindings V → List (V × V)
  | [], _ => []
  | ⟨test, result⟩ :: rest, ρ => (test.eval ρ, result.eval ρ) :: evalCases rest ρ

end

/-- Brackets change no value. -/
theorem Phrase.eval_bracket (needed : Bool) (p : Phrase) (ρ : Bindings V) :
    (p.bracket needed).eval I db ρ = p.eval I db ρ := by
  cases needed <;> rfl

end Evaluation

end Sql

namespace Interpretation

variable {V : Type} (I : Interpretation V)

/-- The value is true, false or unknown. -/
def IsTruthValue (v : V) : Prop := (∃ b, v = I.constant (.boolean b)) ∨ v = I.constant .null

instance [DecidableEq V] (v : V) : Decidable (I.IsTruthValue v) :=
  inferInstanceAs (Decidable ((∃ b, v = I.constant (.boolean b)) ∨ v = I.constant .null))

/-- Truth values are what the three-valued logic of databases takes them for: false is not true and null is
unknown, a disjunction is true when one side is, a `CASE` takes the first result whose condition is true, and
a truth value is what its comparison with `true` is. -/
structure ThreeValued : Prop where
  truth_false : I.truth (I.constant (.boolean false)) = some false
  truth_null : I.truth (I.constant .null) = none
  truth_or (a b : V) : I.truth (I.binary .or a b) = some true ↔
    I.truth a = some true ∨ I.truth b = some true
  equal_true {v : V} (h : I.IsTruthValue v) : I.binary .equal v (I.constant (.boolean true)) = v
  truth_equal (v : V) :
    I.truth (I.binary .equal v (I.constant (.boolean true))) = some true ↔ I.truth v = some true
  case_nil (otherwise : V) : I.case [] (some otherwise) = otherwise
  case_cons (condition result : V) (rest : List (V × V)) (otherwise : Option V) :
    I.case ((condition, result) :: rest) otherwise =
      if I.truth condition = some true then result else I.case rest otherwise

/-- Two values are the same, or at least both are true or neither is. -/
def Agree (truthOnly : Bool) (v w : V) : Prop :=
  if truthOnly then (I.truth v = some true ↔ I.truth w = some true) else v = w

variable {I} {truthOnly : Bool} {v w : V}

/-- The same values agree. -/
theorem Agree.of_eq (h : v = w) : I.Agree truthOnly v w := by
  subst h
  cases truthOnly
  · exact rfl
  · exact Iff.rfl

/-- Of two values that agree, both are true or neither is. -/
theorem Agree.truth (h : I.Agree truthOnly v w) : I.truth v = some true ↔ I.truth w = some true := by
  cases truthOnly
  · rw [show v = w from h]
  · exact h

/-- Where values have to be the same, there are both of them or none. -/
theorem eq_of_agree {o o' : Option V} (h : Option.Rel (I.Agree false) o o') : o = o' := by
  cases h with
  | some h => exact congrArg some h
  | none => rfl

namespace ThreeValued

/-- As a `CASE`, a condition agrees with itself if it is known or only its truth counts. -/
theorem agree_case (h : I.ThreeValued) (hagree : I.Agree truthOnly v w)
    (hknown : truthOnly = false → I.IsTruthValue w ∧ I.truth w ≠ none) :
    I.Agree truthOnly
      (I.case [(v, I.constant (.boolean true))] (some (I.constant (.boolean false)))) w := by
  rw [h.case_cons, h.case_nil]
  cases truthOnly with
  | true =>
    show _ ↔ _
    rw [← hagree.truth]
    split
    · simp_all [I.truth_true]
    · simp_all [h.truth_false]
  | false =>
    obtain ⟨⟨b, hb⟩ | hnull, hknown⟩ := hknown rfl
    · cases (show v = w from hagree)
      subst hb
      cases b with
      | false => exact if_neg (by simp [h.truth_false])
      | true => exact if_pos I.truth_true
    · exact absurd (hnull ▸ h.truth_null) hknown

/-- Compared with `true`, a truth value agrees with itself. -/
theorem agree_equal (h : I.ThreeValued) (hagree : I.Agree truthOnly v w) (hw : I.IsTruthValue w) :
    I.Agree truthOnly (I.binary .equal v (I.constant (.boolean true))) w := by
  cases truthOnly with
  | true => exact (h.truth_equal v).trans hagree.truth
  | false =>
    cases (show v = w from hagree)
    exact h.equal_true hw

/-- Where only truth counts, only the truth of the sides of a conjunction or a disjunction does. -/
theorem agree_logical (h : I.ThreeValued) {op : ScalarOp} {v' w' : V}
    (hv : I.Agree (truthOnly && op.isLogical) v w) (hv' : I.Agree (truthOnly && op.isLogical) v' w') :
    I.Agree truthOnly (I.binary op v v') (I.binary op w w') := by
  cases hlogical : truthOnly && op.isLogical with
  | false =>
    rw [hlogical] at hv hv'
    exact .of_eq (by rw [show v = w from hv, show v' = w' from hv'])
  | true =>
    obtain ⟨rfl, hop⟩ := Bool.and_eq_true_iff.1 hlogical
    show _ ↔ _
    cases op <;> cases hop
    · rw [I.truth_and, I.truth_and, hv.truth, hv'.truth]
    · rw [h.truth_or, h.truth_or, hv.truth, hv'.truth]

/-- Of the conditions of a `CASE` only the truth counts, and of its results what counts of the `CASE`. -/
theorem agree_branches (h : I.ThreeValued) {cases' cases : List (V × V)} {otherwise' otherwise : Option V}
    (hcases : List.Forall₂ (fun c' c => I.Agree true c'.1 c.1 ∧ I.Agree truthOnly c'.2 c.2) cases' cases)
    (hotherwise : Option.Rel (I.Agree truthOnly) otherwise' otherwise) :
    I.Agree truthOnly (I.case cases' otherwise') (I.case cases otherwise) := by
  induction hcases with
  | nil =>
    cases hotherwise with
    | some hagree => rwa [h.case_nil, h.case_nil]
    | none => exact .of_eq rfl
  | cons hbranch _ ih =>
    obtain ⟨htest, hresult⟩ := hbranch
    rw [h.case_cons, h.case_cons, if_congr htest.truth rfl rfl]
    split
    · exact hresult
    · exact ih

end ThreeValued

end Interpretation

namespace Sql

section Knowledge

variable {V : Type} [DecidableEq V] (I : Interpretation V) (db : Database V) (ρ : Bindings V)

/-- The conditions and the values of type `bool` in a scalar are true, false or unknown over a row. -/
def Scalar.HasTruthValues (s : Scalar) : Prop :=
  ∀ part ∈ s.parts, (part.isCondition || part.isBool) = true → I.IsTruthValue (part.eval I db ρ)

instance (s : Scalar) : Decidable (s.HasTruthValues I db ρ) :=
  inferInstanceAs (Decidable (∀ part ∈ s.parts, _))

mutual

/-- No condition that stands for a value is unknown over a row, except where only its truth counts. This is so
for the whole, if it is said to be so, and then for the sides of `AND` and `OR` and the results of a `CASE`;
and it is always so for the conditions of a `CASE`. -/
def Scalar.isKnown (truthOnly : Bool) : Scalar → Bool
  | ⟨node, _, _, isCondition, asValue⟩ =>
    (truthOnly || !(isCondition && asValue) || (I.truth (node.eval I db ρ)).isSome) &&
      node.isKnown truthOnly

/-- The same for the scalars in a node. -/
def Node.isKnown (truthOnly : Bool) : Node → Bool
  | .column .. | .constant _ | .parameter _ | .existsIn .. | .fragment _ => true
  | .binary op left right =>
    left.isKnown (truthOnly && op.isLogical) && right.isKnown (truthOnly && op.isLogical)
  | .not operand | .negate operand | .isNull operand _ | .cast operand => operand.isKnown false
  | .function _ _ receiver args => optionKnown false receiver && listKnown args
  | .case branches otherwise => branchesKnown truthOnly branches && optionKnown truthOnly otherwise
  | .like subject pattern escape =>
    subject.isKnown false && pattern.isKnown false && optionKnown false escape

/-- The same for a scalar that may be missing. -/
def optionKnown (truthOnly : Bool) : Option Scalar → Bool
  | none => true
  | some s => s.isKnown truthOnly

/-- The same for some scalars. -/
def listKnown : List Scalar → Bool
  | [] => true
  | s :: rest => s.isKnown false && listKnown rest

/-- The same for the branches of a `CASE`. -/
def branchesKnown (truthOnly : Bool) : List CaseBranch → Bool
  | [] => true
  | ⟨test, result⟩ :: rest =>
    test.isKnown true && result.isKnown truthOnly && branchesKnown truthOnly rest

end

end Knowledge

section Agreement

variable {V : Type} [DecidableEq V] {I : Interpretation V} {db : Database V} {ρ : Bindings V}

mutual

/-- Where conditions are values, a scalar is written as something with its own value. -/
theorem Scalar.eval_phrase_true : ∀ s : Scalar, (s.phrase true).eval I db ρ = s.eval I db ρ
  | ⟨node, type, mapping, isCondition, asValue⟩ => by
    rw [Scalar.phrase, if_pos rfl, Scalar.eval, Node.eval_phrase_true]

/-- The phrase of a node in which conditions and values are not told apart has the value of the node. -/
theorem Node.eval_phrase_true (type : DataType) (mapping : Option TypeMapping) (isCondition : Bool) :
    ∀ n : Node, (n.phrase true type mapping isCondition).eval I db ρ = n.eval I db ρ
  | .column _ _ | .constant _ | .parameter _ | .existsIn _ _ | .fragment _ => rfl
  | .binary op left right => by
    rw [Node.phrase, Node.eval]
    split
    · rename_i hop
      rw [Phrase.eval, left.eval_phrase_true, right.eval_phrase_true, hop]
    · rw [Phrase.eval, Phrase.eval_bracket, Phrase.eval_bracket, left.eval_phrase_true,
        right.eval_phrase_true]
  | .not operand => by rw [Node.phrase, Phrase.eval, Node.eval, operand.eval_phrase_true]
  | .negate operand => by
    rw [Node.phrase, Phrase.eval, Node.eval, Phrase.eval_bracket, operand.eval_phrase_true]
  | .isNull operand negated => by
    rw [Node.phrase, Phrase.eval, Node.eval, Phrase.eval_bracket, operand.eval_phrase_true]
  | .function name schema receiver args => by
    rw [Node.phrase, Phrase.eval, Node.eval, evalPresent_true receiver, evalPhrases_true args]
  | .case branches otherwise => by
    rw [Node.phrase, Phrase.eval, Node.eval, evalCases_true branches, evalPresent_true otherwise]
  | .like subject pattern escape => by
    rw [Node.phrase, Phrase.eval, Node.eval, subject.eval_phrase_true, pattern.eval_phrase_true,
      evalPresent_true escape]
  | .cast operand => by rw [Node.phrase, Phrase.eval, Node.eval, operand.eval_phrase_true]

/-- The phrase of a scalar that may be missing has the value of the scalar. -/
theorem evalPresent_true : ∀ s : Option Scalar,
    evalPresent I db (optionPhrase true s) ρ = evalOption I db s ρ
  | none => rfl
  | some s => by rw [optionPhrase, evalPresent, evalOption, s.eval_phrase_true]

/-- The phrases of some scalars have the values of the scalars. -/
theorem evalPhrases_true : ∀ ss : List Scalar,
    evalPhrases I db (listPhrases true ss) ρ = evalScalars I db ss ρ
  | [] => rfl
  | s :: rest => by
    rw [listPhrases, evalPhrases, evalScalars, s.eval_phrase_true, evalPhrases_true rest]

/-- The phrases of the branches of a `CASE` have the values of the branches. -/
theorem evalCases_true : ∀ bs : List CaseBranch,
    evalCases I db (branchPhrases true bs) ρ = evalBranches I db bs ρ
  | [] => rfl
  | ⟨test, result⟩ :: rest => by
    rw [branchPhrases, evalCases, evalBranches, test.eval_phrase_true, result.eval_phrase_true,
      evalCases_true rest]

end

/-- What holds of the parts of a node, of which conditions and truth values are said to be truth values. -/
abbrev Node.HasTruthValues (I : Interpretation V) (db : Database V) (ρ : Bindings V)
    (parts : List Scalar) : Prop :=
  ∀ part ∈ parts, (part.isCondition || part.isBool) = true → I.IsTruthValue (part.eval I db ρ)

mutual

/-- Where conditions are no values, a scalar is written as something that agrees with its own value. -/
theorem Scalar.agree_phrase_false (hI : I.ThreeValued) (truthOnly : Bool) : ∀ s : Scalar,
    s.HasTruthValues I db ρ → s.isKnown I db ρ truthOnly = true →
      I.Agree truthOnly ((s.phrase false).eval I db ρ) (s.eval I db ρ)
  | ⟨node, type, mapping, isCondition, asValue⟩ => fun htruth hknown => by
    obtain ⟨hself, hparts⟩ := Scalar.all_iff.1 htruth
    rw [Scalar.isKnown, Bool.and_eq_true] at hknown
    have hnode := Node.agree_phrase_false hI truthOnly type mapping isCondition node hparts hknown.2
    rw [Scalar.phrase, if_neg Bool.false_ne_true, Scalar.eval]
    split
    -- a condition that stands for a value is written as a `CASE`
    · rename_i hcoerced
      obtain ⟨rfl, rfl⟩ := Bool.and_eq_true_iff.1 hcoerced
      rw [Phrase.eval]
      refine hI.agree_case hnode fun h => ⟨hself rfl, ?_⟩
      subst h
      exact Option.isSome_iff_ne_none.1 hknown.1
    · split
      -- a truth value that stands for a condition is compared with `true`
      · rename_i hcoerced
        rw [Phrase.eval]
        exact hI.agree_equal hnode (hself (by simp_all [Scalar.isBool]))
      · exact hnode

/-- The phrase of a node has the value of the node where all conditions that are taken for values are known, and
is true where the node is when only this counts. -/
theorem Node.agree_phrase_false (hI : I.ThreeValued) (truthOnly : Bool) (type : DataType)
    (mapping : Option TypeMapping) (isCondition : Bool) : ∀ n : Node,
    Node.HasTruthValues I db ρ n.parts → n.isKnown I db ρ truthOnly = true →
      I.Agree truthOnly ((n.phrase false type mapping isCondition).eval I db ρ) (n.eval I db ρ)
  | .column _ _ | .constant _ | .parameter _ | .existsIn _ _ | .fragment _ => fun _ _ => .of_eq rfl
  | .binary op left right => fun htruth hknown => by
    rw [Node.parts, Node.HasTruthValues, List.forall_mem_append] at htruth
    rw [Node.isKnown, Bool.and_eq_true] at hknown
    have hl := left.agree_phrase_false hI _ htruth.1 hknown.1
    have hr := right.agree_phrase_false hI _ htruth.2 hknown.2
    rw [Node.phrase, Node.eval]
    split
    · rename_i hop
      subst hop
      exact hI.agree_logical hl hr
    · rw [Phrase.eval, Phrase.eval_bracket, Phrase.eval_bracket]
      exact hI.agree_logical hl hr
  | .not operand => fun htruth hknown => by
    have ho : _ = _ := operand.agree_phrase_false hI false htruth hknown
    rw [Node.phrase, Phrase.eval, Node.eval, ho]
    exact .of_eq rfl
  | .negate operand => fun htruth hknown => by
    have ho : _ = _ := operand.agree_phrase_false hI false htruth hknown
    rw [Node.phrase, Phrase.eval, Node.eval, Phrase.eval_bracket, ho]
    exact .of_eq rfl
  | .isNull operand negated => fun htruth hknown => by
    have ho : _ = _ := operand.agree_phrase_false hI false htruth hknown
    rw [Node.phrase, Phrase.eval, Node.eval, Phrase.eval_bracket, ho]
    exact .of_eq rfl
  | .function name schema receiver args => fun htruth hknown => by
    rw [Node.parts, Node.HasTruthValues, List.forall_mem_append] at htruth
    rw [Node.isKnown, Bool.and_eq_true] at hknown
    have hr := Interpretation.eq_of_agree (agree_evalPresent hI false receiver htruth.1 hknown.1)
    have ha := evalPhrases_false hI args htruth.2 hknown.2
    rw [Node.phrase, Phrase.eval, Node.eval, hr, ha]
    exact .of_eq rfl
  | .case branches otherwise => fun htruth hknown => by
    rw [Node.parts, Node.HasTruthValues, List.forall_mem_append] at htruth
    rw [Node.isKnown, Bool.and_eq_true] at hknown
    rw [Node.phrase, Phrase.eval, Node.eval]
    exact hI.agree_branches (agree_evalCases hI truthOnly branches htruth.1 hknown.1)
      (agree_evalPresent hI truthOnly otherwise htruth.2 hknown.2)
  | .like subject pattern escape => fun htruth hknown => by
    rw [Node.parts, Node.HasTruthValues, List.forall_mem_append, List.forall_mem_append] at htruth
    rw [Node.isKnown, Bool.and_eq_true, Bool.and_eq_true] at hknown
    have hs : _ = _ := subject.agree_phrase_false hI false htruth.1.1 hknown.1.1
    have hp : _ = _ := pattern.agree_phrase_false hI false htruth.1.2 hknown.1.2
    have he := Interpretation.eq_of_agree (agree_evalPresent hI false escape htruth.2 hknown.2)
    rw [Node.phrase, Phrase.eval, Node.eval, hs, hp, he]
    exact .of_eq rfl
  | .cast operand => fun htruth hknown => by
    have ho : _ = _ := operand.agree_phrase_false hI false htruth hknown
    rw [Node.phrase, Phrase.eval, Node.eval, ho]
    exact .of_eq rfl

/-- The phrase of a scalar that may be missing agrees with the scalar. -/
theorem agree_evalPresent (hI : I.ThreeValued) (truthOnly : Bool) : ∀ s : Option Scalar,
    Node.HasTruthValues I db ρ (optionParts s) → optionKnown I db ρ truthOnly s = true →
      Option.Rel (I.Agree truthOnly) (evalPresent I db (optionPhrase false s) ρ) (evalOption I db s ρ)
  | none => fun _ _ => .none
  | some s => fun htruth hknown => .some (s.agree_phrase_false hI truthOnly htruth hknown)

/-- The phrases of some scalars have the values of the scalars where the conditions among them are known. -/
theorem evalPhrases_false (hI : I.ThreeValued) : ∀ ss : List Scalar,
    Node.HasTruthValues I db ρ (listParts ss) → listKnown I db ρ ss = true →
      evalPhrases I db (listPhrases false ss) ρ = evalScalars I db ss ρ
  | [] => fun _ _ => rfl
  | s :: rest => fun htruth hknown => by
    rw [listParts, Node.HasTruthValues, List.forall_mem_append] at htruth
    rw [listKnown, Bool.and_eq_true] at hknown
    have hs : _ = _ := s.agree_phrase_false hI false htruth.1 hknown.1
    rw [listPhrases, evalPhrases, evalScalars, hs, evalPhrases_false hI rest htruth.2 hknown.2]

/-- The phrases of the branches of a `CASE` agree with the branches: the conditions as to whether they are true,
the results as the `CASE` itself. -/
theorem agree_evalCases (hI : I.ThreeValued) (truthOnly : Bool) : ∀ bs : List CaseBranch,
    Node.HasTruthValues I db ρ (branchParts bs) → branchesKnown I db ρ truthOnly bs = true →
      List.Forall₂ (fun c' c => I.Agree true c'.1 c.1 ∧ I.Agree truthOnly c'.2 c.2)
        (evalCases I db (branchPhrases false bs) ρ) (evalBranches I db bs ρ)
  | [] => fun _ _ => .nil
  | ⟨test, result⟩ :: rest => fun htruth hknown => by
    rw [branchParts, Node.HasTruthValues, List.forall_mem_append, List.forall_mem_append] at htruth
    rw [branchesKnown, Bool.and_eq_true, Bool.and_eq_true] at hknown
    exact .cons ⟨test.agree_phrase_false hI true htruth.1.1 hknown.1.1,
      result.agree_phrase_false hI truthOnly htruth.1.2 hknown.1.2⟩
      (agree_evalCases hI truthOnly rest htruth.2 hknown.2)

end

end Agreement

end Sql

end QueryPipeline
