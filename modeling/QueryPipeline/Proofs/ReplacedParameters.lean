import QueryPipeline.Proofs.ParameterLists
import QueryPipeline.Proofs.PlainReplacement

/-!
# Parameters that become constants

Before a select is written, some of its parameters may become constants. This reaches all of them, wherever they
stand in the select and in the selects within it, and does nothing else: the outcome is that of a plain
replacement, there is nothing left to replace in it, and its command lists the other parameters as before.
-/

set_option autoImplicit false

namespace QueryPipeline.Sql

section Listing

variable {which : String → Bool}

/-- A parameter that is replaced does not count, whether it is listed or not. -/
theorem remaining_addFirst_of_replaced {p : CommandParameter} (h : which p.name = true)
    (known : List CommandParameter) : remaining which (addFirst known p) = remaining which known := by
  unfold addFirst
  split
  · rfl
  · rw [remaining_append, remaining_cons_of_replaced h, remaining_nil, List.append_nil]

/-- Another parameter is listed behind the others that are left if it is listed behind all. -/
theorem remaining_addFirst_of_kept {p : CommandParameter} (h : which p.name = false)
    (known : List CommandParameter) :
    remaining which (addFirst known p) = addFirst (remaining which known) p := by
  -- a parameter of the same name is not replaced either
  have hany : (remaining which known).any (·.name == p.name) = known.any (·.name == p.name) := by
    rw [Bool.eq_iff_iff, List.any_eq_true, List.any_eq_true]
    constructor
    · rintro ⟨q, hq, hname⟩
      exact ⟨q, (List.mem_filter.1 hq).1, hname⟩
    · rintro ⟨q, hq, hname⟩
      have hother : which q.name = false := by rw [beq_iff_eq.1 hname, h]
      exact ⟨q, List.mem_filter.2 ⟨hq, by rw [hother, Bool.not_false]⟩, hname⟩
  unfold addFirst
  rw [hany]
  split
  · rfl
  · rw [remaining_append, remaining_cons_of_kept h, remaining_nil]

/-- The list of the parameters that are left is what is left of the list. -/
theorem foldl_addFirst_remaining (ps known : List CommandParameter) :
    (remaining which ps).foldl addFirst (remaining which known) =
      remaining which (ps.foldl addFirst known) := by
  induction ps generalizing known with
  | nil => rfl
  | cons p rest ih =>
    rw [List.foldl_cons, ← ih]
    cases h : which p.name with
    | true => rw [remaining_cons_of_replaced h, remaining_addFirst_of_replaced h]
    | false => rw [remaining_cons_of_kept h, List.foldl_cons, remaining_addFirst_of_kept h]

/-- The parameter list of a command only depends on the parameters of the select. -/
theorem parameters_of_toCommand {style : NameStyle} {s : Select} {command : Command}
    (h : s.toCommand style = .ok command) : command.parameters = (s.parameters style).foldl addFirst [] := by
  obtain ⟨pieces, hpieces, h⟩ := bind_eq_ok.1 h
  cases h
  rw [← s.render_writes pieces hpieces]
  exact parametersOf_eq_foldl pieces []

end Listing

/-- None of the parameters is a node of a select or of a select within it. -/
def Select.FreeOf (which : String → Bool) (s : Select) : Prop :=
  ∀ inner : Select, inner.Within s → ∀ whole ∈ inner.scalars, ∀ part ∈ whole.parts,
    part.node.isOneOf which = false

section Freedom

variable {which : String → Bool} {style : NameStyle} {s : Select}

/-- A select is free of some parameters when none of them is among those that it writes. -/
theorem Select.freeOf_iff : s.FreeOf which ↔ namesOneOf which (s.parameters style) = false := by
  rw [Bool.eq_false_iff, Ne, namesOneOf_iff]
  constructor
  · rintro h ⟨p, hp, hwhich⟩
    obtain ⟨inner, hinner, whole, hwhole, part, hpart, hnode, -⟩ := s.mem_parameters.1 hp
    have hfree := h inner hinner whole hwhole part hpart
    rw [hnode, Node.isOneOf, hwhich] at hfree
    cases hfree
  · intro h inner hinner whole hwhole part hpart
    rw [Bool.eq_false_iff]
    intro hone
    obtain ⟨name, hnode, hname⟩ := Node.eq_parameter_of_isOneOf hone
    exact h ⟨⟨name, style.placeholder name, part.mapping, part.type.nullable⟩,
      s.mem_parameters.2 ⟨inner, hinner, whole, hwhole, part, hpart, hnode, rfl⟩, hname⟩

end Freedom

namespace Replacement

/-- Where no parameter becomes a constant, nothing is replaced. -/
theorem ofParameters_false (value : Scalar → Literal) (frame : Scalar → Scalar) :
    ofParameters (fun _ => false) value frame = nothing := by
  have hnone : Scalar.asConstant? (fun _ => false) value frame = fun _ => none := by
    funext s
    have hone : s.node.isOneOf (fun _ => false) = false := by
      cases s.node <;> rfl
    exact Scalar.asConstant?_of_not_isOneOf hone
  rw [ofParameters, hnone]
  rfl

end Replacement

/-- The value that a list has for a scalar, if this is a parameter. -/
def Scalar.valueIn (parameters : List (String × Literal)) (s : Scalar) : Literal :=
  match s.node with
  | .parameter name => (parameters.lookup name).getD .null
  | _ => .null

/-- A specialization with values for parameters and nothing else makes them constants. -/
theorem Specialization.replacement_eq_ofParameters (parameters : List (String × Literal)) :
    Specialization.replacement ⟨parameters, [], [], none⟩ =
      .ofParameters (fun name => (parameters.lookup name).isSome) (Scalar.valueIn parameters) id := by
  have hscalar (s : Scalar) : Specialization.scalar ⟨parameters, [], [], none⟩ s =
      .ok (s.asConstant? (fun name => (parameters.lookup name).isSome) (Scalar.valueIn parameters) id) := by
    obtain ⟨node, type, mapping, isCondition, asValue⟩ := s
    cases node with
    | parameter name =>
      cases h : parameters.lookup name <;>
        simp [Specialization.scalar, Scalar.asConstant?, Node.isOneOf, Scalar.valueIn, h]
    | _ => rfl
  have hselect (s : Select) : Specialization.select ⟨parameters, [], [], none⟩ s = none := by
    have hnone : (s.tables.any fun t =>
        (Specialization.table? ⟨parameters, [], [], none⟩ t).isSome) = false := by
      rw [List.any_eq_false]
      intro t _
      cases t <;> simp [Specialization.table?]
    rw [Specialization.select, hnone, rebuilt_false]
  rw [Specialization.replacement, Replacement.ofParameters, funext hscalar, funext hselect]

/-- A replacement of nothing keeps every select. -/
theorem Select.replace?_nothing (s : Select) : s.replace? .nothing = .ok none := by
  have hnames : namesOneOf (fun _ => false) (s.parameters ⟨.msSql, .whenNeeded⟩) = false := by
    simp [namesOneOf]
  have hshares : Shares (namesOneOf (fun _ => false) (s.parameters ⟨.msSql, .whenNeeded⟩)) s _
      (s.replace? (.ofParameters (fun _ => false) (fun _ => .null) id)) := s.replace?_ofParameters
  rw [← Replacement.ofParameters_false (fun _ => .null) id, hshares.answer_eq, hnames, rebuilt_false]

/-- Making parameters constants in a select succeeds. The outcome is that of the plain replacement, and the
select itself is kept just when it has none of the parameters. Afterwards none of them is left anywhere, and there
is nothing more to replace. If both commands can be written, the second one lists the parameters of the first one
without those that have become constants. A replacement of nothing keeps every select. -/
theorem parameters_become_constants (which : String → Bool) (value : Scalar → Literal) (frame : Scalar → Scalar)
    (s : Select) :
    (∃ answer, s.replace? (.ofParameters which value frame) = .ok answer ∧
      answer.getD s = s.replaceAll (Scalar.asConstant? which value frame) ∧
      (answer = none ↔ s.FreeOf which) ∧
      (answer.getD s).FreeOf which ∧
      (answer.getD s).replace? (.ofParameters which value frame) = .ok none ∧
      ∀ (style : NameStyle) (command command' : Command), s.toCommand style = .ok command →
        (answer.getD s).toCommand style = .ok command' →
          command'.parameters = command.parameters.filter fun p => !which p.name) ∧
      s.replace? .nothing = .ok none := by
  refine ⟨?_, s.replace?_nothing⟩
  -- the parameters are the same in every style, up to their order and placeholders
  let style : NameStyle := ⟨.msSql, .whenNeeded⟩
  let plain := s.replaceAll (Scalar.asConstant? which value frame)
  have hshares : Shares (namesOneOf which (s.parameters style)) s plain
      (s.replace? (.ofParameters which value frame)) := s.replace?_ofParameters
  have hplain : (rebuilt (namesOneOf which (s.parameters style)) plain).getD s = plain :=
    getD_rebuilt hshares.eq_of_unchanged
  have hfree : namesOneOf which (plain.parameters style) = false := by
    rw [s.parameters_replaceAll, namesOneOf_remaining]
  refine ⟨_, hshares.answer_eq, hplain, ?_, ?_, ?_, ?_⟩
  · rw [rebuilt_eq_none_iff, Select.freeOf_iff]
  · rw [hplain, Select.freeOf_iff]
    exact hfree
  · have hagain : Shares (namesOneOf which (plain.parameters style)) plain _
        (plain.replace? (.ofParameters which value frame)) := plain.replace?_ofParameters
    rw [hplain, hagain.answer_eq, hfree, rebuilt_false]
  · intro style command command' h h'
    rw [hplain] at h'
    rw [parameters_of_toCommand h', s.parameters_replaceAll, parameters_of_toCommand h]
    exact foldl_addFirst_remaining (s.parameters style) []

/-- The scalar as a text of the server. -/
def Scalar.asNationalText (s : Scalar) : Scalar :=
  { s with mapping := some ⟨"nvarchar(max)", .text, .text true, none⟩ }

/-- The name stands in the source of the greetings and in their condition. It becomes a constant in both, so the
command lists the limit and the greeting only. -/
theorem who_becomes_constant :
    ∃ answer command command', Select.greetings.replace?
        (.ofParameters (· == "who") (fun _ => .text "Ada") Scalar.asNationalText) = .ok (some answer) ∧
      answer.FreeOf (· == "who") ∧
      Select.greetings.toCommand ⟨.msSql, .whenNeeded⟩ = .ok command ∧
      answer.toCommand ⟨.msSql, .whenNeeded⟩ = .ok command' ∧
      command.parameters.map (·.name) = ["most", "greeting", "who"] ∧
      command'.parameters.map (·.name) = ["most", "greeting"] := by
  let style : NameStyle := ⟨.msSql, .whenNeeded⟩
  obtain ⟨command, hcommand, hnames⟩ : ∃ command, Select.greetings.toCommand style = .ok command ∧
      decide (command.parameters.map (·.name) = ["most", "greeting", "who"]) = true :=
    exists_of_any (by decide +kernel)
  obtain ⟨command', hcommand', -⟩ : ∃ command', (Select.greetings.replaceAll (Scalar.asConstant? (· == "who")
      (fun _ => .text "Ada") Scalar.asNationalText)).toCommand style = .ok command' ∧
        decide (command'.parameters.length = 2) = true :=
    exists_of_any (by decide +kernel)
  obtain ⟨⟨answer, hanswer, hplain, -, hfree, -, hlist⟩, -⟩ :=
    parameters_become_constants (· == "who") (fun _ => .text "Ada") Scalar.asNationalText .greetings
  rw [← hplain] at hcommand'
  have hleft : command'.parameters.map (·.name) = ["most", "greeting"] := by
    have hfilter : command'.parameters.map (·.name) =
        (command.parameters.map (·.name)).filter fun name => !(name == "who") := by
      rw [hlist style command command' hcommand hcommand', List.filter_map]
      rfl
    rw [hfilter, of_decide_eq_true hnames]
    decide
  cases answer with
  | none =>
    -- without a replacement both lists would be the same
    rw [Option.getD_none, hcommand] at hcommand'
    cases hcommand'
    rw [of_decide_eq_true hnames] at hleft
    simp at hleft
  | some answer => exact ⟨answer, command, command', hanswer, hfree, hcommand, hcommand',
      of_decide_eq_true hnames, hleft⟩

end QueryPipeline.Sql
