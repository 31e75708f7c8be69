import QueryPipeline.Proofs.Conditions
import QueryPipeline.Proofs.Precedence

/-!
# Text that groups as its scalar does

Operands that are operations between two operands stand in parentheses, all other operands do not. So a text
is grouped as its scalar is, unless one of these other operands shows an operator that binds too loosely: a
condition that stands for a value where conditions are values, or a sign before a product where signs bind
loosely.
-/

set_option autoImplicit false

namespace QueryPipeline

open Sql

namespace Sql

/-- A node is written with a sign before it. -/
def Node.isSigned (mapping : Option TypeMapping) : Node → Bool
  | .negate _ => true
  | .constant value => (constantText mapping value).toOption.any (·.toList.head? = some '-')
  | _ => false

/-- A product whose first factor is written with a sign before it. -/
def Node.hasSignedFactor : Node → Bool
  | .binary op left _ => op.isProduct && left.node.isSigned left.mapping
  | _ => false

/-- A scalar is in place, and written without an operator that binds too loosely for its operands: no
condition stands for a value where conditions are values, and no sign before a product on SQL Server. -/
structure Scalar.GroupsIn (d : Dialect) (s : Scalar) : Prop where
  inPlace : s.InPlace
  apart : d.hasBooleanValues = true → s.isCondition = true → s.asValue = false
  sign : d = .msSql → s.node.hasSignedFactor = false

/-- The operators that the text of a scalar shows. -/
def Scalar.grouping (style : NameStyle) (s : Scalar) : Except Diagnostic Grouping :=
  (s.phrase style.dialect.hasBooleanValues).grouping style

/-- What the text of a value shows, which may need parentheses as an operand and may begin with a sign. -/
structure Grouping.OfValue (d : Dialect) (needsParens isSigned : Bool) (g : Grouping) : Prop where
  value : g.IsValue d
  operand (h : needsParens = false) : g.IsOperand d
  unit (h : needsParens = false) (hsign : isSigned = false) : g.isUnit = true

/-- What the text of a condition shows. -/
structure Grouping.OfCondition (d : Dialect) (needsParens : Bool) (g : Grouping) : Prop where
  fits : g.fits d.level = true
  condition (h : needsParens = false) : g.IsCondition d

namespace Grouping

variable {d : Dialect} {needsParens isSigned : Bool} {g : Grouping}

/-- An operand shows what a value shows, when it is a unit unless it begins with a sign. -/
theorem OfValue.ofOperand (h : g.IsOperand d) (hunit : isSigned = false → g.isUnit = true) :
    g.OfValue d needsParens isSigned :=
  ⟨h.isValue, fun _ => h, fun _ => hunit⟩

/-- A unit shows what any value shows. -/
theorem OfValue.ofUnit (hunit : g.isUnit = true) (hfits : g.fits d.level = true) :
    g.OfValue d needsParens isSigned :=
  .ofOperand (.unit hunit hfits) fun _ => hunit

/-- What a value shows is what a condition may show. -/
theorem OfValue.ofCondition (h : g.OfValue d needsParens isSigned) : g.OfCondition d needsParens :=
  ⟨h.value.fits, fun _ => h.value.isCondition⟩

/-- A condition that joins no others shows what any condition may show. -/
theorem OfCondition.ofIsCondition (h : g.IsCondition d) : g.OfCondition d needsParens :=
  ⟨h.fits, fun _ => h⟩

end Grouping

section Written

variable {style : NameStyle}

/-- A phrase in parentheses is a unit. -/
theorem Phrase.grouping_parens {p : Phrase} {g : Grouping}
    (h : (Phrase.parens p).grouping style = .ok g) {π : Sign → Nat}
    (hp : ∀ g', p.grouping style = .ok g' → g'.fits π = true) : g.isUnit = true ∧ g.fits π = true := by
  obtain ⟨g', hg', h⟩ := bind_eq_ok.1 h
  cases h
  exact ⟨rfl, Grouping.fits_enclose _ _ (List.forall_mem_singleton.2 (hp g' hg'))⟩

/-- A value in the parentheses that it needs is an operand. -/
theorem Phrase.isOperand_bracket {d : Dialect} {needsParens isSigned : Bool} {p : Phrase}
    (hp : ∀ g, p.grouping style = .ok g → g.OfValue d needsParens isSigned) {g : Grouping}
    (h : (p.bracket needsParens).grouping style = .ok g) :
    g.IsOperand d ∧ (isSigned = false → g.isUnit = true) := by
  cases needsParens with
  | false => exact ⟨(hp g h).operand rfl, (hp g h).unit rfl⟩
  | true =>
    obtain ⟨hunit, hfits⟩ := grouping_parens h fun g' hg' => (hp g' hg').value.fits
    exact ⟨.unit hunit hfits, fun _ => hunit⟩

/-- A condition in the parentheses that it needs may be joined with another one. -/
theorem Phrase.isCondition_bracket {d : Dialect} {needsParens : Bool} {p : Phrase}
    (hp : ∀ g, p.grouping style = .ok g → g.OfCondition d needsParens) {g : Grouping}
    (h : (p.bracket needsParens).grouping style = .ok g) : g.IsCondition d := by
  cases needsParens with
  | false => exact (hp g h).condition rfl
  | true =>
    obtain ⟨hunit, hfits⟩ := grouping_parens h fun g' hg' => (hp g' hg').fits
    exact (Grouping.IsOperand.unit hunit hfits).isValue.isCondition

/-- A literal shows what a value shows, with a sign where it begins with a minus. -/
theorem ofValue_signed {d : Dialect} {needsParens : Bool} (literal : String) :
    (signed literal).OfValue d needsParens (literal.toList.head? = some '-') := by
  unfold signed
  split
  · rename_i digits h
    refine .ofOperand (.signed _ (.unit rfl rfl)) fun hsign => ?_
    rw [h] at hsign
    cases hsign
  · exact .ofUnit rfl rfl

variable (style) in
/-- What the text of a scalar shows where it stands. -/
def Scalar.GroupsWell (s : Scalar) : Prop :=
  ∀ g, s.grouping style = .ok g →
    (s.asValue = true → g.OfValue style.dialect s.node.isInfix (s.node.isSigned s.mapping)) ∧
      (s.asValue = false → g.OfCondition style.dialect s.node.isInfix)

/-- In the place of a value the text of a scalar shows what a value shows. -/
theorem Scalar.GroupsWell.ofValue {s : Scalar} (h : s.GroupsWell style) (hvalue : s.asValue = true)
    {g : Grouping} (hg : s.grouping style = .ok g) :
    g.OfValue style.dialect s.node.isInfix (s.node.isSigned s.mapping) := (h g hg).1 hvalue

/-- In the place of a condition the text of a scalar shows what a condition shows. -/
theorem Scalar.GroupsWell.ofCondition {s : Scalar} (h : s.GroupsWell style) (hvalue : s.asValue = false)
    {g : Grouping} (hg : s.grouping style = .ok g) : g.OfCondition style.dialect s.node.isInfix :=
  (h g hg).2 hvalue

mutual

/-- The text of a scalar shows operators that bind as tightly as the place of the scalar needs. -/
theorem Scalar.groupsWell : ∀ s : Scalar, s.All (Scalar.GroupsIn style.dialect) → s.GroupsWell style
  | ⟨node, type, mapping, isCondition, asValue⟩ => fun h g hg => by
    obtain ⟨hself, hparts⟩ := Scalar.all_iff.1 h
    have hnode := Node.groupsWell type mapping isCondition node hparts hself.inPlace.conditions
      hself.inPlace.values hself.inPlace.receiver hself.sign
    have hform : isCondition = (node.isConditionForm || node.isSearch) := hself.inPlace.form
    have hcondition : ∀ g, (node.phrase style.dialect.hasBooleanValues type mapping isCondition).grouping
        style = .ok g → g.OfCondition style.dialect node.isInfix := by
      intro g hg
      cases hnodeForm : node.isConditionForm with
      | true => exact (hnode g hg).2 hnodeForm
      | false => exact ((hnode g hg).1 hnodeForm).ofCondition
    have hvalue : isCondition = false → ∀ g, (node.phrase style.dialect.hasBooleanValues type mapping
        isCondition).grouping style = .ok g →
          g.OfValue style.dialect node.isInfix (node.isSigned mapping) := by
      intro hc g hg
      rw [hc] at hform
      exact (hnode g hg).1 (Bool.or_eq_false_iff.1 hform.symm).1
    rw [Scalar.grouping, Scalar.phrase] at hg
    split at hg
    -- where conditions are values, nothing is coerced
    · rename_i hbooleans
      refine ⟨fun hplace => hvalue ?_ g hg, fun _ => hcondition g hg⟩
      exact Bool.eq_false_iff.2 fun hc => absurd (hself.apart hbooleans hc) (by rw [hplace]; nofun)
    · split at hg
      -- a condition that stands for a value is written as a `CASE`, which is a unit
      · rename_i hwrapped
        obtain ⟨-, hplace⟩ := Bool.and_eq_true_iff.1 hwrapped
        obtain ⟨_, -, hg⟩ := bind_eq_ok.1 hg
        obtain ⟨_, -, hg⟩ := bind_eq_ok.1 hg
        obtain ⟨c, hc, hg⟩ := bind_eq_ok.1 hg
        cases hg
        refine ⟨fun _ => .ofUnit rfl (Grouping.fits_enclose _ _ ?_), fun h => ?_⟩
        · exact List.forall_mem_singleton.2 (hcondition c hc).fits
        · exact absurd (hplace.symm.trans h) nofun
      · rename_i hwrapped
        split at hg
        -- a value that stands for a condition is compared with `true`
        · rename_i hcompared
          simp only [Bool.and_eq_true, Bool.not_eq_true'] at hcompared
          obtain ⟨v, hv, hg⟩ := bind_eq_ok.1 hg
          obtain ⟨_, -, hg⟩ := bind_eq_ok.1 hg
          cases hg
          refine ⟨fun h => absurd (hcompared.1.2.symm.trans h) nofun, fun _ => .ofIsCondition ?_⟩
          exact Grouping.isCondition_comparison rfl (hvalue hcompared.1.1 v hv).value (.unit rfl rfl)
        · refine ⟨fun hplace => hvalue ?_ g hg, fun _ => hcondition g hg⟩
          exact Bool.eq_false_iff.2 fun hc => hwrapped (Bool.and_eq_true_iff.2 ⟨hc, hplace⟩)

/-- The text of a node shows operators as those of a value or a condition. -/
theorem Node.groupsWell (type : DataType) (mapping : Option TypeMapping) (isCondition : Bool) :
    ∀ n : Node, (∀ part ∈ n.parts, part.GroupsIn style.dialect) →
      (∀ c ∈ n.conditions, c.asValue = false) → (∀ v ∈ n.values, v.asValue = true) →
      n.receiver? = none → (style.dialect = .msSql → n.hasSignedFactor = false) →
      ∀ g, (n.phrase style.dialect.hasBooleanValues type mapping isCondition).grouping style = .ok g →
        (n.isConditionForm = false → g.OfValue style.dialect n.isInfix (n.isSigned mapping)) ∧
          (n.isConditionForm = true → g.OfCondition style.dialect n.isInfix)
  | .column _ _ | .parameter _ | .fragment _ => fun _ _ _ _ _ g h => by
    cases h
    exact ⟨fun _ => .ofUnit rfl rfl, nofun⟩
  | .constant value => fun _ _ _ _ _ g h => by
    obtain ⟨literal, hliteral, h⟩ := bind_eq_ok.1 h
    cases h
    refine ⟨fun _ => ?_, nofun⟩
    have hsigned : Node.isSigned mapping (.constant value) = decide (literal.toList.head? = some '-') := by
      rw [Node.isSigned, hliteral]
      rfl
    rw [hsigned]
    exact ofValue_signed literal
  | .existsIn inner negated => fun _ _ _ _ _ g h => by
    obtain ⟨pieces, -, h⟩ := bind_eq_ok.1 h
    cases h
    refine ⟨nofun, fun _ => .ofIsCondition ?_⟩
    split
    · exact Grouping.isCondition_not rfl rfl
    · exact (Grouping.IsOperand.unit rfl rfl).isValue.isCondition
  | .not operand => fun hparts hconditions _ _ _ g h => by
    obtain ⟨g', hg', h⟩ := bind_eq_ok.1 h
    cases h
    have hoperand := (operand.groupsWell hparts).ofCondition
      (hconditions operand (List.mem_singleton_self _)) hg'
    exact ⟨nofun, fun _ => .ofIsCondition (Grouping.isCondition_not rfl
      (Grouping.fits_enclose _ _ (List.forall_mem_singleton.2 hoperand.fits)))⟩
  | .negate operand => fun hparts _ hvalues _ _ g h => by
    obtain ⟨g', hg', h⟩ := bind_eq_ok.1 h
    cases h
    have hoperand := Phrase.isOperand_bracket (fun _ => (operand.groupsWell hparts).ofValue
      (hvalues operand (List.mem_singleton_self _))) hg'
    exact ⟨fun _ => .ofOperand (.signed _ hoperand.1) nofun, nofun⟩
  | .isNull operand negated => fun hparts _ hvalues _ _ g h => by
    obtain ⟨g', hg', h⟩ := bind_eq_ok.1 h
    cases h
    have hoperand := Phrase.isOperand_bracket (fun _ => (operand.groupsWell hparts).ofValue
      (hvalues operand (List.mem_singleton_self _))) hg'
    exact ⟨nofun, fun _ => .ofIsCondition (Grouping.isCondition_isNull hoperand.1)⟩
  | .cast operand => fun hparts _ hvalues _ _ g h => by
    cases mapping with
    | none => cases h
    | some m =>
      obtain ⟨g', hg', h⟩ := bind_eq_ok.1 h
      cases h
      have hoperand := (operand.groupsWell hparts).ofValue (hvalues operand (List.mem_singleton_self _)) hg'
      exact ⟨fun _ => .ofUnit rfl
        (Grouping.fits_enclose _ _ (List.forall_mem_singleton.2 hoperand.value.fits)), nofun⟩
  | .binary op left right => fun hparts hconditions hvalues _ hsign g h => by
    obtain ⟨hleft, hright⟩ := List.forall_mem_append.1 hparts
    have hleft := left.groupsWell hleft
    have hright := right.groupsWell hright
    rw [Node.phrase] at h
    -- `COALESCE` is written as a function of its operands, all other operators between them
    by_cases hcoalesce : op = .coalesce
    · subst hcoalesce
      obtain ⟨hl, hr⟩ := (Node.forall_values_binary rfl).1 hvalues
      obtain ⟨l, hlg, h⟩ := bind_eq_ok.1 h
      obtain ⟨r, hrg, h⟩ := bind_eq_ok.1 h
      cases h
      refine ⟨fun _ => .ofUnit rfl (Grouping.fits_enclose _ _ ?_), nofun⟩
      exact List.forall_mem_cons.2 ⟨(hleft.ofValue hl hlg).value.fits,
        List.forall_mem_singleton.2 (hright.ofValue hr hrg).value.fits⟩
    · rw [if_neg hcoalesce] at h
      obtain ⟨l, hlg, h⟩ := bind_eq_ok.1 h
      obtain ⟨r, hrg, h⟩ := bind_eq_ok.1 h
      cases h
      have hparens : (Node.binary op left right).isInfix = true := bne_iff_ne.2 hcoalesce
      cases hop : op.isLogical with
      | true =>
        obtain ⟨hl, hr⟩ := (Node.forall_conditions_binary hop).1 hconditions
        have hl := Phrase.isCondition_bracket (fun _ => hleft.ofCondition hl) hlg
        have hr := Phrase.isCondition_bracket (fun _ => hright.ofCondition hr) hrg
        rw [signOf_of_ne_add (by rintro rfl; cases hop)]
        refine ⟨fun hform => ?_, fun _ => ⟨Grouping.fits_logical hop hl hr, fun h => ?_⟩⟩
        · rw [Node.isConditionForm, hop, Bool.or_true] at hform
          cases hform
        · rw [hparens] at h
          cases h
      | false =>
        obtain ⟨hl, hr⟩ := (Node.forall_values_binary hop).1 hvalues
        have hl := Phrase.isOperand_bracket (fun _ => hleft.ofValue hl) hlg
        have hr := Phrase.isOperand_bracket (fun _ => hright.ofValue hr) hrg
        rw [Node.isConditionForm, hop, Bool.or_false]
        refine ⟨fun hcomparison => ⟨?_, ?_, ?_⟩, fun hcomparison => .ofIsCondition ?_⟩
        · refine Grouping.isValue_between (by rw [hcomparison, hop]; rfl) hcoalesce hl.1 hr.1
            fun hd hproduct => hl.2 ?_
          have hsign := hsign hd
          rwa [Node.hasSignedFactor, hproduct, Bool.true_and] at hsign
        · exact fun h => absurd (hparens.symm.trans h) nofun
        · exact fun h => absurd (hparens.symm.trans h) nofun
        · rw [signOf_of_ne_add (by rintro rfl; cases hcomparison)]
          exact Grouping.isCondition_comparison hcomparison hl.1.isValue hr.1
  | .function name schema receiver args => fun hparts _ hvalues hreceiver _ g h => by
    have hreceiver : receiver = none := hreceiver
    subst hreceiver
    obtain ⟨owner, howner, h⟩ := bind_eq_ok.1 h
    cases howner
    obtain ⟨parts, hargs, h⟩ := bind_eq_ok.1 h
    cases h
    have hfits := argumentParts_fit args [] hparts hvalues parts hargs
    cases schema <;> exact
      ⟨fun _ => .ofUnit (Grouping.isUnit_enclose _ _ _) (Grouping.fits_enclose _ _ hfits), nofun⟩
  | .case branches otherwise => fun hparts hconditions hvalues _ _ g h => by
    obtain ⟨hbranches, hotherwise⟩ := List.forall_mem_append.1 hparts
    obtain ⟨hresults, hrest⟩ := List.forall_mem_append.1 hvalues
    obtain ⟨parts, hcases, h⟩ := bind_eq_ok.1 h
    obtain ⟨rest, helse, h⟩ := bind_eq_ok.1 h
    cases h
    have hcases := caseParts_fit branches hbranches hconditions hresults parts hcases
    have helse := optionGrouping_isValue otherwise hotherwise (by simpa using hrest) rest helse
    refine ⟨fun _ => .ofUnit (Grouping.isUnit_enclose _ _ _) (Grouping.fits_enclose _ _ ?_), nofun⟩
    refine List.forall_mem_append.2 ⟨hcases, fun part hpart => ?_⟩
    obtain ⟨g, hg, rfl⟩ := List.mem_map.1 hpart
    exact (helse g (Option.mem_toList.1 hg)).fits
  | .like subject pattern escape => fun hparts _ hvalues _ _ g h => by
    obtain ⟨hparts, hescape⟩ := List.forall_mem_append.1 hparts
    obtain ⟨hsubject, hpattern⟩ := List.forall_mem_append.1 hparts
    obtain ⟨hs, hvalues⟩ := List.forall_mem_cons.1 hvalues
    obtain ⟨hp, hvalues⟩ := List.forall_mem_cons.1 hvalues
    obtain ⟨s, hsg, h⟩ := bind_eq_ok.1 h
    obtain ⟨p, hpg, h⟩ := bind_eq_ok.1 h
    obtain ⟨e, heg, h⟩ := bind_eq_ok.1 h
    cases h
    have hs := ((subject.groupsWell hsubject).ofValue hs hsg).value
    have hp := ((pattern.groupsWell hpattern).ofValue hp hpg).value
    have he := optionGrouping_isValue escape hescape (by simpa using hvalues) e heg
    refine ⟨nofun, fun _ => .ofIsCondition ?_⟩
    cases e with
    | none => exact Grouping.isCondition_like hs hp
    | some e => exact Grouping.isCondition_escape hs hp (he e rfl)

/-- A scalar that may be missing shows only operators that make values of values. -/
theorem optionGrouping_isValue : ∀ s : Option Scalar,
    (∀ part ∈ optionParts s, part.GroupsIn style.dialect) → (∀ v ∈ s, v.asValue = true) →
    ∀ o, optionGrouping style (optionPhrase style.dialect.hasBooleanValues s) = .ok o →
      ∀ g ∈ o, Grouping.IsValue style.dialect g
  | none => fun _ _ o h => by
    cases h
    nofun
  | some s => fun hparts hvalue o h => by
    obtain ⟨g, hg, h⟩ := bind_eq_ok.1 h
    cases h
    rintro _ ⟨⟩
    exact ((s.groupsWell hparts).ofValue (hvalue s rfl) hg).value

/-- The operators in arguments fit. -/
theorem argumentParts_fit : ∀ (ss : List Scalar) (before : List Piece),
    (∀ part ∈ listParts ss, part.GroupsIn style.dialect) → (∀ v ∈ ss, v.asValue = true) →
    ∀ parts, argumentParts style before (listPhrases style.dialect.hasBooleanValues ss) = .ok parts →
      ∀ part ∈ parts, part.2.fits style.dialect.level = true
  | [], _ => fun _ _ parts h => by
    cases h
    exact List.forall_mem_nil _
  | s :: rest, before => fun hparts hvalues parts h => by
    obtain ⟨hs, hrest⟩ := List.forall_mem_append.1 hparts
    obtain ⟨hvalue, hvalues⟩ := List.forall_mem_cons.1 hvalues
    obtain ⟨g, hg, h⟩ := bind_eq_ok.1 h
    obtain ⟨others, hothers, h⟩ := bind_eq_ok.1 h
    cases h
    exact List.forall_mem_cons.2 ⟨((s.groupsWell hs).ofValue hvalue hg).value.fits,
      argumentParts_fit rest _ hrest hvalues others hothers⟩

/-- The operators in the branches of a `CASE` fit. -/
theorem caseParts_fit : ∀ bs : List CaseBranch,
    (∀ part ∈ branchParts bs, part.GroupsIn style.dialect) →
    (∀ c ∈ bs.map (·.test), c.asValue = false) → (∀ v ∈ bs.map (·.result), v.asValue = true) →
    ∀ parts, caseParts style (branchPhrases style.dialect.hasBooleanValues bs) = .ok parts →
      ∀ part ∈ parts, part.2.fits style.dialect.level = true
  | [] => fun _ _ _ parts h => by
    cases h
    exact List.forall_mem_nil _
  | ⟨test, result⟩ :: rest => fun hparts htests hresults parts h => by
    obtain ⟨hbranch, hrest⟩ := List.forall_mem_append.1 hparts
    obtain ⟨htest, hresult⟩ := List.forall_mem_append.1 hbranch
    obtain ⟨hcondition, htests⟩ := List.forall_mem_cons.1 htests
    obtain ⟨hvalue, hresults⟩ := List.forall_mem_cons.1 hresults
    obtain ⟨t, htg, h⟩ := bind_eq_ok.1 h
    obtain ⟨r, hrg, h⟩ := bind_eq_ok.1 h
    obtain ⟨others, hothers, h⟩ := bind_eq_ok.1 h
    cases h
    exact List.forall_mem_cons.2 ⟨((test.groupsWell htest).ofCondition hcondition htg).fits,
      List.forall_mem_cons.2 ⟨((result.groupsWell hresult).ofValue hvalue hrg).value.fits,
        caseParts_fit rest hrest htests hresults others hothers⟩⟩

end

end Written

/-- Two minus signs next to each other begin a comment. -/
def beginsComment : List Token → Bool
  | .before .minus _ :: .before .minus _ :: _ => true
  | _ :: rest => beginsComment rest
  | [] => false

/-- The expression that a database reads in a text, if it reads one. -/
def Dialect.readText (d : Dialect) (tokens : List Token) : Option Grouping :=
  if beginsComment tokens then none else readTokens d.level tokens

/-- The tokens of a scalar are what it is written as, wherever it stands. -/
theorem Scalar.exists_grouping {style : NameStyle} {s : Scalar} {pieces : List Piece}
    (h : s.render style = .ok pieces) : ∃ g, s.grouping style = .ok g ∧ ∀ before after,
      Command.ofPieces (before ++ g.pieces ++ after) = Command.ofPieces (before ++ pieces ++ after) := by
  have hspells := @Phrase.grouping_spells style (s.phrase style.dialect.hasBooleanValues)
  rw [← s.render_eq, h] at hspells
  rw [Scalar.grouping]
  generalize (s.phrase style.dialect.hasBooleanValues).grouping style = grouping at hspells ⊢
  cases hspells with
  | ok hspell => exact ⟨_, rfl, fun _ _ => Command.ofPieces_of_spell (by simp [hspell])⟩

end Sql

/-- The text of a scalar is read back as the operators of the scalar, as long as they fit together. They do
where methods and members are called by names of their own, unless a condition stands for a value where
conditions are values, or a sign stands before a product on SQL Server. -/
theorem text_groups_as_scalar (model : Model) (options : Options) (query : Query) (shaped : ShapedQuery)
    (h : (Compiler.new model options).lower query = .ok shaped) (select : Select)
    (hselect : select.Within shaped.select) (s : Scalar) (hs : s ∈ select.scalars) (style : NameStyle)
    (pieces : List Piece) (hpieces : s.render style = .ok pieces) :
    ∃ g, s.grouping style = .ok g ∧
      (∀ before after,
        Command.ofPieces (before ++ g.pieces ++ after) = Command.ofPieces (before ++ pieces ++ after)) ∧
      (g.fits style.dialect.level = true → beginsComment g.tokens = false →
        style.dialect.readText g.tokens = some g) ∧
      ((∀ e ∈ query.bodies, e.isUnqualified = true) →
        (style.dialect.hasBooleanValues = true →
          ∀ part ∈ s.parts, part.isCondition = true → part.asValue = false) →
        (style.dialect = .msSql → ∀ part ∈ s.parts, part.node.hasSignedFactor = false) →
        g.fits style.dialect.level = true) := by
  obtain ⟨g, hg, htext⟩ := Scalar.exists_grouping hpieces
  refine ⟨g, hg, htext, fun hfits hcomment => ?_, fun hnames hapart hsign => ?_⟩
  · rw [Dialect.readText, hcomment, if_neg Bool.false_ne_true, readTokens_of_fits hfits]
  · have hholds := lower_placed h hnames select hselect
    have hplaced : s.Placed := hholds.scalar hs
    have hgroups := s.groupsWell (fun part hpart =>
      ⟨hplaced part hpart, fun hbooleans => hapart hbooleans part hpart, fun hd => hsign hd part hpart⟩) g hg
    cases hvalue : s.asValue with
    | true => exact (hgroups.1 hvalue).value.fits
    | false => exact (hgroups.2 hvalue).fits

/-- Whether a member is active just when he has no name is read as whether the comparison of the two is
unknown, where conditions are values. -/
theorem activeUnnamed_groups_otherwise :
    ∃ shaped predicate pieces g,
      (Compiler.new .members { Options.standard with dialect := .postgres }).lower .activeUnnamed =
        .ok shaped ∧
      predicate ∈ shaped.select.predicate ∧ predicate.render ⟨.postgres, .whenNeeded⟩ = .ok pieces ∧
      predicate.grouping ⟨.postgres, .whenNeeded⟩ = .ok g ∧
      (∀ before after,
        Command.ofPieces (before ++ g.pieces ++ after) = Command.ofPieces (before ++ pieces ++ after)) ∧
      beginsComment g.tokens = false ∧ Dialect.postgres.readText g.tokens ≠ some g := by
  obtain ⟨shaped, predicate, hlower, -, hpredicate, hcheck⟩ :
      ∃ shaped predicate,
        (Compiler.new .members { Options.standard with dialect := .postgres }).lower .activeUnnamed =
          .ok shaped ∧ shaped.select.tables ≠ [] ∧ predicate ∈ shaped.select.predicate ∧
        ((predicate.render ⟨.postgres, .whenNeeded⟩).isOk &&
          (predicate.grouping ⟨.postgres, .whenNeeded⟩).toOption.all fun g =>
            !g.fits Dialect.postgres.level && !beginsComment g.tokens) = true :=
    exists_predicate (by decide +kernel)
  obtain ⟨hwritten, hcheck⟩ := Bool.and_eq_true_iff.1 hcheck
  obtain ⟨pieces, hpieces⟩ := exists_of_isOk hwritten
  obtain ⟨g, hg, htext⟩ := Scalar.exists_grouping hpieces
  rw [hg] at hcheck
  obtain ⟨hfits, hcomment⟩ := Bool.and_eq_true_iff.1 hcheck
  rw [Bool.not_eq_true'] at hfits hcomment
  refine ⟨shaped, predicate, pieces, g, hlower, hpredicate, hpieces, hg, htext, hcomment, fun hread => ?_⟩
  rw [Dialect.readText, hcomment, if_neg Bool.false_ne_true, readTokens_tokens, hfits] at hread
  cases hread

/-- Where conditions are no values, the two are compared. -/
theorem activeUnnamed_reads_back :
    ∃ shaped predicate pieces g,
      (Compiler.new .members .standard).lower .activeUnnamed = .ok shaped ∧
      predicate ∈ shaped.select.scalars ∧ predicate.render ⟨.msSql, .whenNeeded⟩ = .ok pieces ∧
      predicate.grouping ⟨.msSql, .whenNeeded⟩ = .ok g ∧
      (∀ before after,
        Command.ofPieces (before ++ g.pieces ++ after) = Command.ofPieces (before ++ pieces ++ after)) ∧
      Dialect.msSql.readText g.tokens = some g := by
  obtain ⟨shaped, predicate, hlower, -, hpredicate, hcheck⟩ :
      ∃ shaped predicate, (Compiler.new .members .standard).lower .activeUnnamed = .ok shaped ∧
        shaped.select.tables ≠ [] ∧ predicate ∈ shaped.select.predicate ∧
        ((predicate.render ⟨.msSql, .whenNeeded⟩).isOk &&
          ((predicate.grouping ⟨.msSql, .whenNeeded⟩).toOption.all fun g => !beginsComment g.tokens) &&
          decide (∀ part ∈ predicate.parts, part.node.hasSignedFactor = false)) = true :=
    exists_predicate (by decide +kernel)
  obtain ⟨hwritten, hsign⟩ := Bool.and_eq_true_iff.1 hcheck
  obtain ⟨hwritten, hcheck⟩ := Bool.and_eq_true_iff.1 hwritten
  obtain ⟨pieces, hpieces⟩ := exists_of_isOk hwritten
  have hmem : predicate ∈ shaped.select.scalars := by
    simp [Select.scalars, show shaped.select.predicate = some predicate from hpredicate]
  obtain ⟨g, hg, htext, hreads, hfits⟩ := text_groups_as_scalar .members .standard .activeUnnamed shaped
    hlower shaped.select .refl predicate hmem ⟨.msSql, .whenNeeded⟩ pieces hpieces
  rw [hg] at hcheck
  have hcomment : beginsComment g.tokens = false := by simpa [Except.toOption] using hcheck
  exact ⟨shaped, predicate, pieces, g, hlower, hmem, hpieces, hg, htext,
    hreads (hfits (by decide) nofun fun _ => of_decide_eq_true hsign) hcomment⟩

end QueryPipeline
