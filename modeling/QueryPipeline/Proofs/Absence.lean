import QueryPipeline.Proofs.NullableTypes
import QueryPipeline.Proofs.Evaluation

/-!
# Values that are never absent

Where a column or a parameter is never absent by its type, a row and the values bound to a statement have a
value for it. An operator or a function is absent only where something it is applied to is. So a scalar whose
type admits no absence has a value, as long as no condition that decides it is unknown and no function that
decides it overlooks an argument that may be absent.
-/

set_option autoImplicit false

namespace QueryPipeline

open Sql

/-- A value is absent only where a constant is null, or where values that it is made of are absent: both of the
two values of which the first that is present is taken, a result of a `CASE`, or any operand or argument of
all else. A piece of a statement that is written as it is has a value. -/
structure Interpretation.Strict {V : Type} (I : Interpretation V) (absent : V → Prop) : Prop where
  constant {value : Literal} (h : absent (I.constant value)) : value = .null
  fragment (sql : String) : ¬absent (I.fragment sql)
  binary {op : ScalarOp} {a b : V} (hop : op ≠ .coalesce) (h : absent (I.binary op a b)) :
    absent a ∨ absent b
  coalesce {a b : V} (h : absent (I.binary .coalesce a b)) : absent a ∧ absent b
  negate {a : V} (h : absent (I.negate a)) : absent a
  cast {a : V} (h : absent (I.cast a)) : absent a
  function {name : String} {schema : Option String} {receiver : Option V} {args : List V}
    (h : absent (I.function name schema receiver args)) : ∃ v ∈ receiver.toList ++ args, absent v
  case {branches : List (V × V)} {otherwise : Option V} (h : absent (I.case branches otherwise)) :
    (∃ b ∈ branches, absent b.2) ∨ ∀ v ∈ otherwise, absent v

section Meaning

variable {V : Type} [DecidableEq V] {I : Interpretation V} {absent : V → Prop} {db : Database V}
  {ρ : Bindings V}

namespace Sql

/-- The branches of a `CASE` are evaluated one by one, in their order. -/
theorem evalBranches_eq (branches : List CaseBranch) :
    evalBranches I db branches ρ = branches.map fun b => (b.test.eval I db ρ, b.result.eval I db ρ) := by
  induction branches with
  | nil => rfl
  | cons b rest ih =>
    obtain ⟨test, result⟩ := b
    rw [evalBranches, ih, List.map_cons]

/-- What is granted of a scalar that decides another one: a column and a parameter whose types admit no absence
have a value, a condition is not unknown, and no argument that is overlooked may be absent by its type. -/
structure Scalar.Granted (I : Interpretation V) (absent : V → Prop) (db : Database V) (ρ : Bindings V)
    (s : Scalar) : Prop where
  column : ∀ table name, s.node = .column table name → s.type.nullable = false → ¬absent (ρ table name)
  parameter : ∀ name, s.node = .parameter name → s.type.nullable = false → ¬absent (I.parameter name)
  condition : s.node.isConditionForm = true → ¬absent (s.eval I db ρ)
  arguments : s.node.overlooks = true → s.type.nullable = false →
    ∀ a ∈ s.node.deciding, a.type.nullable = false

/-- A node that is not a condition has an absent value only where a scalar that decides it has one, unless it
is a column or a parameter. -/
theorem Node.Accounts.exists_absent (hI : I.Strict absent) {n : Node} (h : n.Accounts)
    (hcondition : n.isConditionForm = false) (hcolumn : ∀ table name, n ≠ .column table name)
    (hparameter : ∀ name, n ≠ .parameter name) (habsent : absent (n.eval I db ρ)) :
    ∃ part ∈ n.deciding, absent (part.eval I db ρ) := by
  cases n with
  | column table name => exact absurd rfl (hcolumn table name)
  | parameter name => exact absurd rfl (hparameter name)
  | constant value =>
    have hvalue : value.isNull = false := h.constant
    rw [hI.constant habsent] at hvalue
    cases hvalue
  | fragment sql => exact absurd habsent (hI.fragment sql)
  | not _ | isNull _ _ | existsIn _ _ | like _ _ _ => cases hcondition
  | negate operand => exact ⟨operand, List.mem_singleton_self _, hI.negate habsent⟩
  | cast operand => exact ⟨operand, List.mem_singleton_self _, hI.cast habsent⟩
  | binary op left right =>
    have hvalue : ¬(op.isComparison || op.isLogical) = true := by
      rw [isConditionForm] at hcondition
      simp [hcondition]
    rw [deciding, if_neg hvalue]
    rw [Node.eval] at habsent
    split
    · rename_i hop
      rw [hop] at habsent
      exact ⟨right, List.mem_singleton_self _, (hI.coalesce habsent).2⟩
    · rename_i hop
      rcases hI.binary hop habsent with habsent | habsent
      · exact ⟨left, List.mem_cons_self, habsent⟩
      · exact ⟨right, List.mem_cons_of_mem _ (List.mem_singleton_self _), habsent⟩
  | function name schema receiver args =>
    rw [Node.eval, evalOption_eq, evalScalars_eq] at habsent
    obtain ⟨v, hv, habsent⟩ := hI.function habsent
    have hmap : v ∈ (receiver.toList ++ args).map (·.eval I db ρ) := by
      rw [List.map_append]
      cases receiver <;> exact hv
    obtain ⟨part, hpart, rfl⟩ := List.mem_map.1 hmap
    exact ⟨part, hpart, habsent⟩
  | case branches otherwise =>
    rw [Node.eval, evalOption_eq, evalBranches_eq] at habsent
    rcases hI.case habsent with ⟨v, hv, habsent⟩ | habsent
    · obtain ⟨b, hb, rfl⟩ := List.mem_map.1 hv
      exact ⟨b.result, List.mem_append_left _ (List.mem_map.2 ⟨b, hb, rfl⟩), habsent⟩
    · cases otherwise with
      | none => cases h.complete
      | some s => exact ⟨s, List.mem_append_right _ (List.mem_singleton_self _), habsent _ rfl⟩

/-- A scalar whose type admits no absence has a value where all that decides it is granted. -/
theorem Scalar.Tracks.present (hI : I.Strict absent) {s : Scalar} (h : s.Tracks)
    (hgranted : ∀ part : Scalar, part.Decides s → part.Granted I absent db ρ)
    (htype : s.type.nullable = false) : ¬absent (s.eval I db ρ) := by
  induction h with
  | @intro s hnode _ _ ih _ =>
    intro habsent
    have hself := hgranted s .refl
    have haccounts := hnode htype
    have hcondition : s.node.isConditionForm = false := by
      cases h : s.node.isConditionForm with
      | true => exact absurd habsent (hself.condition h)
      | false => rfl
    have hparts : ∀ part ∈ s.node.deciding, part.type.nullable = false := by
      cases hoverlooks : s.node.overlooks with
      | true => exact hself.arguments hoverlooks htype
      | false => exact haccounts.parts hoverlooks
    rw [Scalar.eval_eq] at habsent
    have hcolumn : ∀ table name, s.node ≠ .column table name := by
      intro table name hn
      rw [hn] at habsent
      exact hself.column table name hn htype habsent
    have hparameter : ∀ name, s.node ≠ .parameter name := by
      intro name hn
      rw [hn] at habsent
      exact hself.parameter name hn htype habsent
    obtain ⟨part, hpart, habsent⟩ := haccounts.exists_absent hI hcondition hcolumn hparameter habsent
    exact ih htype part hpart (fun _ h => hgranted _ (.child htype hpart h)) (hparts part hpart) habsent

/-- What decides a scalar is a part of it. -/
theorem Node.mem_parts_of_deciding {n : Node} {child part : Scalar} (hchild : child ∈ n.deciding)
    (hpart : part ∈ child.parts) : part ∈ n.parts := by
  cases n with
  | binary op left right =>
    have hmem : child = left ∨ child = right := by
      rw [deciding] at hchild
      split at hchild
      · cases hchild
      · split at hchild
        · exact .inr (List.mem_singleton.1 hchild)
        · exact List.mem_pair.1 hchild
    rcases hmem with rfl | rfl
    · exact List.mem_append_left _ hpart
    · exact List.mem_append_right _ hpart
  | negate operand | cast operand => rwa [List.mem_singleton.1 hchild] at hpart
  | function name schema receiver args =>
    rcases List.mem_append.1 hchild with hchild | hchild
    · exact List.mem_append_left _ (mem_optionParts.2 ⟨child, Option.mem_toList.1 hchild, hpart⟩)
    · exact List.mem_append_right _ (mem_listParts.2 ⟨child, hchild, hpart⟩)
  | case branches otherwise =>
    rcases List.mem_append.1 hchild with hchild | hchild
    · obtain ⟨b, hb, rfl⟩ := List.mem_map.1 hchild
      exact List.mem_append_left _ (mem_branchParts.2 ⟨b, hb, .inr hpart⟩)
    · exact List.mem_append_right _ (mem_optionParts.2 ⟨child, Option.mem_toList.1 hchild, hpart⟩)
  | _ => cases hchild

/-- A scalar that decides whether another one is absent is a part of it. -/
theorem Scalar.Decides.mem_parts {part whole : Scalar} (h : part.Decides whole) : part ∈ whole.parts := by
  induction h with
  | refl => simp [part.parts_eq]
  | child _ hchild _ ih =>
    rw [Scalar.parts_eq]
    exact List.mem_cons_of_mem _ (Node.mem_parts_of_deciding hchild ih)

end Sql

end Meaning

/-- A scalar that a body becomes over any draft of a pipeline has a value when its type admits no absence, if no
body converts to such a type. This holds in every row in which the columns and parameters that decide it have
values where their types admit no absence. No condition that decides it may be unknown, and a function that
overlooks arguments may only have arguments whose types admit no absence. -/
theorem value_of_type_present (model : Model) (options : Options) {source : String} {start q : ShapedDraft}
    (hstart : (Compiler.new model options).environment.start source = .ok start)
    (hsteps : (Compiler.new model options).environment.Steps (·.everywhere Expr.widens = true) start q)
    {e : Expr} (he : e.everywhere Expr.widens = true) {s : Scalar}
    (hs : ((Compiler.new model options).environment.scope q).lower e = .ok (some s))
    (htype : s.type.nullable = false) {V : Type} [DecidableEq V] (I : Interpretation V)
    (absent : V → Prop) (hI : I.Strict absent) (db : Database V) (ρ : Bindings V)
    (hcolumns : ∀ part : Scalar, part.Decides s → ∀ table name, part.node = .column table name →
      part.type.nullable = false → ¬absent (ρ table name))
    (hparameters : ∀ part : Scalar, part.Decides s → ∀ name, part.node = .parameter name →
      part.type.nullable = false → ¬absent (I.parameter name))
    (hconditions : ∀ part : Scalar, part.Decides s → part.node.isConditionForm = true →
      ¬absent (part.eval I db ρ))
    (harguments : ∀ part : Scalar, part.Decides s → part.node.overlooks = true →
      part.type.nullable = false → ∀ a ∈ part.node.deciding, a.type.nullable = false) :
    ¬absent (s.eval I db ρ) := by
  have hf : (Compiler.new model options).environment.functions.Keep
      (Compiler.new model options).environment.catalog Scalar.Tracks := ofDialect_tracks options.dialect
  obtain ⟨-, hcarries⟩ := (Environment.nests_tracks hf).steps hstart hsteps
  have htracks : s.Tracks := (Scope.lower_lowered e s hs).tracks hf hcarries.shape he
  refine htracks.present hI (fun part hpart => ?_) htype
  exact ⟨hcolumns part hpart, hparameters part hpart, hconditions part hpart, harguments part hpart⟩

/-- All that is known of a value is whether it is present. -/
def Interpretation.presence : Interpretation Bool where
  constant value := !value.isNull
  parameter _ := true
  fragment _ := true
  binary
    | .coalesce, a, b => a || b
    | _, a, b => a && b
  not a := a
  negate a := a
  isNull _ _ := true
  function _ _ receiver args := receiver.toList.all id && args.all id
  case branches otherwise := branches.all (·.2) && otherwise.getD false
  existsIn _ _ := true
  like subject pattern escape := subject && pattern && escape.toList.all id
  cast a := a
  truth a := some a
  compare _ _ := .eq
  count _ := 0
  truth_true := rfl
  truth_and := by decide
  compare_trans := { eq_swap := rfl, isLE_trans := fun _ _ => rfl }

/-- In the interpretation that knows no more of a value than whether it is present, what is made of an absent
value is absent. -/
theorem Interpretation.presence_strict : Interpretation.presence.Strict (· = false) where
  constant {value} h := by
    cases value with
    | null => rfl
    | _ => cases h
  fragment _ := nofun
  binary {op a b} hop h := by
    cases op with
    | coalesce => exact absurd rfl hop
    | _ => exact Bool.and_eq_false_iff.1 h
  coalesce h := Bool.or_eq_false_iff.1 h
  negate h := h
  cast h := h
  function {name schema receiver args} h := by
    have hall : (receiver.toList ++ args).all id = false := by
      rw [List.all_append]
      exact h
    obtain ⟨v, hv, habsent⟩ := List.all_eq_false.1 hall
    exact ⟨v, hv, by simpa using habsent⟩
  case {branches otherwise} h := by
    rcases Bool.and_eq_false_iff.1 h with h | h
    · obtain ⟨b, hb, habsent⟩ := List.all_eq_false.1 h
      exact .inl ⟨b, hb, by simpa using habsent⟩
    · right
      rintro v ⟨⟩
      exact h

/-- The lowering of pipelines over persons for SQLite. -/
def Environment.lightPersons : Environment :=
  (Compiler.new .persons { Options.standard with dialect := .sqlite }).environment

/-- Where a letter is in the name of a person, or in the empty text if there is no name. -/
def Lambda.letterInSomeName : Lambda :=
  ⟨"p", .call (some (.binary .coalesce (.access (.param "p") "name") (.constant (.text ""))))
    (.plain "index_of") [.constant (.text "a")]⟩

/-- A person without a name has a position of the letter in the text that takes the place of the name. -/
theorem letterInSomeName_present :
    ∃ start s, Environment.lightPersons.start "Person" = .ok start ∧
      (Environment.lightPersons.scope start).lower (Lambda.letterInSomeName.inline start.shaper) =
        .ok (some s) ∧
      s.type = .int32 ∧
      ¬s.eval .presence (fun _ _ => []) (fun _ column => column != "name") = false := by
  obtain ⟨start, hstart, hcheck⟩ : ∃ start, Environment.lightPersons.start "Person" = .ok start ∧
      (((Environment.lightPersons.scope start).lower
        (Lambda.letterInSomeName.inline start.shaper)).toOption.any fun answer => answer.any fun s =>
          s.type == .int32 && s.parts.all fun part =>
            !part.node.isConditionForm &&
            (!part.node.overlooks || part.node.deciding.all (!·.type.nullable)) &&
            (part.type.nullable || part.ownName? != some "name")) = true := exists_of_any (by decide +kernel)
  obtain ⟨answer, hs, hcheck⟩ := exists_of_any hcheck
  obtain ⟨s, rfl, hcheck⟩ := (Option.any_eq_true _ _).1 hcheck
  obtain ⟨htype, hparts⟩ := Bool.and_eq_true_iff.1 hcheck
  have htype : s.type = .int32 := by simpa using htype
  have hgranted : ∀ part : Scalar, part.Decides s → part.node.isConditionForm = false ∧
      (part.node.overlooks = true → ∀ a ∈ part.node.deciding, a.type.nullable = false) ∧
      ∀ table name, part.node = .column table name → part.type.nullable = false → name ≠ "name" := by
    intro part hpart
    have hcheck := List.all_eq_true.1 hparts part hpart.mem_parts
    simp only [Bool.and_eq_true, Bool.not_eq_true', Bool.or_eq_true] at hcheck
    refine ⟨hcheck.1.1, fun hoverlooks => ?_, fun table name hnode hnullable => ?_⟩
    · rcases hcheck.1.2 with hlooks | hall
      · rw [hoverlooks] at hlooks
        cases hlooks
      · simpa using hall
    · simpa [hnullable, Scalar.ownName?, hnode] using hcheck.2
  refine ⟨start, s, hstart, hs, htype, ?_⟩
  refine value_of_type_present .persons { Options.standard with dialect := .sqlite } hstart .refl
    (Expr.widens_inline (by decide) ?_) hs (by rw [htype]; rfl) .presence (· = false)
    Interpretation.presence_strict _ _ ?_ ?_ ?_ ?_
  · obtain ⟨entity, -, rfl⟩ := Environment.start_eq_ok hstart
    rfl
  · intro part hpart table name hnode hnullable
    simpa using (hgranted part hpart).2.2 table name hnode hnullable
  · intro part _ name _ _
    exact Bool.noConfusion
  · intro part hpart hcondition
    rw [(hgranted part hpart).1] at hcondition
    cases hcondition
  · intro part hpart hoverlooks _
    exact (hgranted part hpart).2.1 hoverlooks

/-- Where a letter is in the name of a person. -/
def Lambda.letterInName : Lambda :=
  ⟨"p", .call (some (.access (.param "p") "name")) (.plain "index_of") [.constant (.text "a")]⟩

/-- A person without a name has no position of a letter in it, though the type of the position admits no
absence. -/
theorem letterInName_absent :
    ∃ start s, Environment.lightPersons.start "Person" = .ok start ∧
      (Environment.lightPersons.scope start).lower (Lambda.letterInName.inline start.shaper) = .ok (some s) ∧
      s.type = .int32 ∧ Interpretation.presence.Strict (· = false) ∧
      s.eval .presence (fun _ _ => []) (fun _ column => column != "name") = false := by
  obtain ⟨start, hstart, hcheck⟩ : ∃ start, Environment.lightPersons.start "Person" = .ok start ∧
      (((Environment.lightPersons.scope start).lower
        (Lambda.letterInName.inline start.shaper)).toOption.any fun answer => answer.any fun s =>
          s.type == .int32 && !s.eval .presence (fun _ _ => []) (fun _ column => column != "name")) = true :=
    exists_of_any (by decide +kernel)
  obtain ⟨answer, hs, hcheck⟩ := exists_of_any hcheck
  obtain ⟨s, rfl, hcheck⟩ := (Option.any_eq_true _ _).1 hcheck
  obtain ⟨htype, habsent⟩ := Bool.and_eq_true_iff.1 hcheck
  exact ⟨start, s, hstart, hs, by simpa using htype, Interpretation.presence_strict, by simpa using habsent⟩

end QueryPipeline
