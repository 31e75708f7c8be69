import QueryPipeline.Proofs.PhraseGrouping

/-!
# Levels of operators

How tightly operators bind in each dialect, and what follows for expressions. Operators that make values of
values bind more tightly than those that ask something about values, and these bind more tightly than those
that join conditions. So it matters only which of the three kinds of operators an operand shows: signs,
operators between values, or operators of conditions.
-/

set_option autoImplicit false

namespace QueryPipeline

open Sql

namespace Sql

/-- The operator multiplies or divides. -/
def ScalarOp.isProduct : ScalarOp → Bool
  | multiply | divide | modulo => true
  | _ => false

/-- How tightly operators bind in standard SQL and on PostgreSQL. -/
def standardLevel : Sign → Nat
  | .member => 10
  | .minus => 9
  | .op .multiply | .op .divide | .op .modulo => 8
  | .op .add | .op .subtract | .op .bitAnd | .op .bitOr | .join => 7
  | .like | .escape => 6
  | .op .equal | .op .notEqual | .op .greaterThan | .op .greaterThanOrEqual | .op .lessThan
  | .op .lessThanOrEqual => 5
  | .isNull => 4
  | .not => 3
  | .op .and => 2
  | .op .or => 1
  | .op .coalesce => 0

/-- How tightly operators bind on SQL Server, where a sign binds as the operators between two numbers do. -/
def msSqlLevel : Sign → Nat
  | .member => 10
  | .op .multiply | .op .divide | .op .modulo => 8
  | .minus | .op .add | .op .subtract | .op .bitAnd | .op .bitOr | .join => 7
  | .op .equal | .op .notEqual | .op .greaterThan | .op .greaterThanOrEqual | .op .lessThan
  | .op .lessThanOrEqual | .like | .escape | .isNull => 4
  | .not => 3
  | .op .and => 2
  | .op .or => 1
  | .op .coalesce => 0

/-- How tightly operators bind on SQLite. -/
def sqliteLevel : Sign → Nat
  | .member => 11
  | .minus => 10
  | .join => 9
  | .op .multiply | .op .divide | .op .modulo => 8
  | .op .add | .op .subtract => 7
  | .op .bitAnd | .op .bitOr => 6
  | .op .greaterThan | .op .greaterThanOrEqual | .op .lessThan | .op .lessThanOrEqual => 5
  | .op .equal | .op .notEqual | .like | .escape | .isNull => 4
  | .not => 3
  | .op .and => 2
  | .op .or => 1
  | .op .coalesce => 0

namespace Dialect

/-- How tightly operators bind in a dialect. -/
def level : Dialect → Sign → Nat
  | generic | postgres => standardLevel
  | msSql => msSqlLevel
  | sqlite => sqliteLevel

/-- The level of the operators that ask something about values and bind most tightly. -/
def testLevel : Dialect → Nat
  | generic | postgres => 6
  | msSql => 4
  | sqlite => 5

variable (d : Dialect)

/-- A sign binds more tightly than every operator that asks something. -/
theorem testLevel_lt_minus : d.testLevel < d.level .minus := by cases d <;> decide

/-- A match with a pattern binds no more tightly than the tightest operators that ask something. -/
theorem like_le : d.level .like ≤ d.testLevel := by cases d <;> decide

/-- The letter for escapes binds no more tightly than the match that it belongs to. -/
theorem escape_le_like : d.level .escape ≤ d.level .like := by cases d <;> decide

/-- The question for null binds no more tightly than the tightest operators that ask something. -/
theorem isNull_le : d.level .isNull ≤ d.testLevel := by cases d <;> decide

/-- `AND` binds less tightly than the letter for escapes. -/
theorem and_lt_escape : d.level (.op .and) < d.level .escape := by cases d <;> decide

/-- `AND` binds less tightly than the question for null. -/
theorem and_lt_isNull : d.level (.op .and) < d.level .isNull := by cases d <;> decide

/-- `AND` binds no more tightly than `NOT`. -/
theorem and_le_not : d.level (.op .and) ≤ d.level .not := by cases d <;> decide

variable {op : ScalarOp}

/-- An operator that joins conditions binds no more tightly than `AND`. -/
theorem logical_le (hop : op.isLogical = true) : d.level (.op op) ≤ d.level (.op .and) := by
  cases d <;> cases op <;> first | decide | cases hop

/-- A comparison binds no more tightly than the tightest operators that ask something. -/
theorem comparison_le (hop : op.isComparison = true) : d.level (.op op) ≤ d.testLevel := by
  cases d <;> cases op <;> first | decide | cases hop

/-- `AND` binds less tightly than every comparison. -/
theorem and_lt_comparison (hop : op.isComparison = true) : d.level (.op .and) < d.level (.op op) := by
  cases d <;> cases op <;> first | decide | cases hop

/-- The operators that make a value of two values bind more tightly than those that ask something. -/
theorem testLevel_lt_signOf (hop : (op.isComparison || op.isLogical) = false) (hcoalesce : op ≠ .coalesce)
    (kind : DataKind) : d.testLevel < d.level (signOf op kind) := by
  have hjoin : d.testLevel < d.level .join := by cases d <;> decide
  have hvalue : d.testLevel < d.level (.op op) := by
    cases d <;> cases op <;> first | decide | exact absurd rfl hcoalesce | cases hop
  unfold signOf
  split
  · exact hjoin
  · exact hvalue

/-- A sign binds at least as tightly as an operator between two values, except before a product on SQL
Server. -/
theorem signOf_le_minus (kind : DataKind) (h : d = .msSql → op.isProduct = false) :
    d.level (signOf op kind) ≤ d.level .minus := by
  have hjoin : d.level .join ≤ d.level .minus := by cases d <;> decide
  have hvalue : d.level (.op op) ≤ d.level .minus := by
    cases d <;> cases op <;> first | decide | cases h rfl
  unfold signOf
  split
  · exact hjoin
  · exact hvalue

end Dialect

/-- An atom or a bracket, which shows no operator. -/
def Grouping.isUnit : Grouping → Bool
  | .atom _ | .enclosed _ _ => true
  | _ => false

/-- An operand that needs no parentheses: a unit, perhaps with signs before it. -/
inductive Grouping.IsOperand (d : Dialect) : Grouping → Prop
  | unit {g : Grouping} (hunit : g.isUnit = true) (hfits : g.fits d.level = true) : IsOperand d g
  | signed {g : Grouping} (text : String) (h : IsOperand d g) : IsOperand d (.before .minus text g)

/-- An expression that shows only operators that make values of values. -/
structure Grouping.IsValue (d : Dialect) (g : Grouping) : Prop where
  fits : g.fits d.level = true
  opens : g.opensAbove d.level d.testLevel = true
  closes : g.closesAt d.level (d.testLevel + 1) = true

/-- An expression that shows no operators that join conditions. -/
structure Grouping.IsCondition (d : Dialect) (g : Grouping) : Prop where
  fits : g.fits d.level = true
  opens : g.opensAbove d.level (d.level (.op .and)) = true
  closes : g.closesAt d.level (d.level (.op .and)) = true

namespace Grouping

variable {π : Sign → Nat} {d : Dialect}

/-- What opens above a level opens above every lower one. -/
theorem opensAbove_mono {k k' : Nat} (hk : k' ≤ k) : ∀ {g : Grouping}, g.opensAbove π k = true →
    g.opensAbove π k' = true
  | .atom _, _ | .before _ _ _, _ | .enclosed _ _, _ => rfl
  | .between _ _ left _, h => by
    obtain ⟨hsign, hleft⟩ := opensAbove_between.1 h
    exact opensAbove_between.2 ⟨by omega, opensAbove_mono hk hleft⟩
  | .after _ _ operand, h => by
    obtain ⟨hsign, hoperand⟩ := opensAbove_after.1 h
    exact opensAbove_after.2 ⟨by omega, opensAbove_mono hk hoperand⟩

/-- What closes at a level closes at every lower one. -/
theorem closesAt_mono {k k' : Nat} (hk : k' ≤ k) : ∀ {g : Grouping}, g.closesAt π k = true →
    g.closesAt π k' = true
  | .atom _, _ | .after _ _ _, _ | .enclosed _ _, _ => rfl
  | .between _ _ _ right, h => by
    obtain ⟨hsign, hright⟩ := closesAt_between.1 h
    exact closesAt_between.2 ⟨by omega, closesAt_mono hk hright⟩
  | .before _ _ operand, h => by
    obtain ⟨hsign, hoperand⟩ := closesAt_before.1 h
    exact closesAt_before.2 ⟨by omega, closesAt_mono hk hoperand⟩

/-- A unit opens above every level. -/
theorem opensAbove_of_isUnit {g : Grouping} (h : g.isUnit = true) (k : Nat) : g.opensAbove π k = true := by
  cases g <;> first | rfl | cases h

/-- A unit closes at every level. -/
theorem closesAt_of_isUnit {g : Grouping} (h : g.isUnit = true) (k : Nat) : g.closesAt π k = true := by
  cases g <;> first | rfl | cases h

/-- A bracket is a unit. -/
theorem isUnit_enclose (opening closing : List Piece) (parts : List Part) :
    (enclose opening closing parts).isUnit = true := by
  cases parts <;> rfl

/-- What is in a bracket fits when its first part and all others do. -/
theorem fits_contents (closing : List Piece) : ∀ (rest : List Part) {g : Grouping},
    g.fits π = true → (∀ part ∈ rest, part.2.fits π = true) → (Contents.of g closing rest).fits π = true
  | [], _, hg, _ => hg
  | (_, g') :: rest, _, hg, hrest => by
    obtain ⟨hg', hrest⟩ := List.forall_mem_cons.1 hrest
    exact Contents.fits_more.2 ⟨hg, fits_contents closing rest hg' hrest⟩

/-- A bracket fits when its parts do. -/
theorem fits_enclose (opening closing : List Piece) {parts : List Part}
    (h : ∀ part ∈ parts, part.2.fits π = true) : (enclose opening closing parts).fits π = true := by
  cases parts with
  | nil => rfl
  | cons part rest =>
    obtain ⟨hpart, hrest⟩ := List.forall_mem_cons.1 h
    exact fits_contents closing rest hpart hrest

namespace IsOperand

variable {g : Grouping}

/-- An operand opens above every level. -/
theorem opensAbove (h : g.IsOperand d) (k : Nat) : g.opensAbove d.level k = true := by
  cases h with
  | unit hunit _ => exact opensAbove_of_isUnit hunit k
  | signed _ _ => rfl

/-- The operators in an operand fit. -/
theorem fits (h : g.IsOperand d) : g.fits d.level = true := by
  induction h with
  | unit _ hfits => exact hfits
  | signed _ h ih => exact fits_before.2 ⟨ih, h.opensAbove _⟩

/-- An operand closes at every level up to the one of signs. -/
theorem closesAt (h : g.IsOperand d) {k : Nat} (hk : k ≤ d.level .minus) : g.closesAt d.level k = true := by
  induction h with
  | unit hunit _ => exact closesAt_of_isUnit hunit k
  | signed _ _ ih => exact closesAt_before.2 ⟨hk, ih⟩

/-- An operand shows only operators that make values of values. -/
theorem isValue (h : g.IsOperand d) : g.IsValue d :=
  ⟨h.fits, h.opensAbove _, h.closesAt d.testLevel_lt_minus⟩

end IsOperand

/-- A value shows no operators that join conditions. -/
theorem IsValue.isCondition {g : Grouping} (h : g.IsValue d) : g.IsCondition d := by
  have hand := d.and_lt_isNull
  have htest := d.isNull_le
  exact ⟨h.fits, opensAbove_mono (by omega) h.opens, closesAt_mono (by omega) h.closes⟩

/-- An operation between two operands that makes a value is a value. -/
theorem isValue_between {op : ScalarOp} {kind : DataKind} {text : String} {l r : Grouping}
    (hop : (op.isComparison || op.isLogical) = false) (hcoalesce : op ≠ .coalesce) (hl : l.IsOperand d)
    (hr : r.IsOperand d) (hsign : d = .msSql → op.isProduct = true → l.isUnit = true) :
    (between (signOf op kind) text l r).IsValue d := by
  have hlevel := d.testLevel_lt_signOf hop hcoalesce kind
  -- a sign before the left operand binds tightly enough, except before a product on SQL Server
  have hcloses : l.closesAt d.level (d.level (signOf op kind)) = true := by
    by_cases hunit : l.isUnit = true
    · exact closesAt_of_isUnit hunit _
    · refine hl.closesAt (d.signOf_le_minus kind fun hd => ?_)
      exact Bool.eq_false_iff.2 fun hproduct => hunit (hsign hd hproduct)
  refine ⟨fits_between.2 ⟨hl.fits, hr.fits, hcloses, hr.opensAbove _⟩, ?_, ?_⟩
  · exact opensAbove_between.2 ⟨hlevel, hl.opensAbove _⟩
  · exact closesAt_between.2 ⟨hlevel, hr.closesAt d.testLevel_lt_minus⟩

/-- A comparison of values is a condition. -/
theorem isCondition_comparison {op : ScalarOp} {text : String} {l r : Grouping}
    (hop : op.isComparison = true) (hl : l.IsValue d) (hr : r.IsOperand d) :
    (between (.op op) text l r).IsCondition d := by
  have hand := d.and_lt_comparison hop
  have htest := d.comparison_le hop
  have hminus := d.testLevel_lt_minus
  have hcloses : l.closesAt d.level (d.level (.op op)) = true := closesAt_mono (by omega) hl.closes
  refine ⟨fits_between.2 ⟨hl.fits, hr.fits, hcloses, hr.opensAbove _⟩, ?_, ?_⟩
  · exact opensAbove_between.2 ⟨hand, hl.isCondition.opens⟩
  · exact closesAt_between.2 ⟨by omega, hr.closesAt (by omega)⟩

/-- Two conditions that are joined fit. -/
theorem fits_logical {op : ScalarOp} {text : String} {l r : Grouping} (hop : op.isLogical = true)
    (hl : l.IsCondition d) (hr : r.IsCondition d) : (between (.op op) text l r).fits d.level = true :=
  fits_between.2 ⟨hl.fits, hr.fits, closesAt_mono (d.logical_le hop) hl.closes,
    opensAbove_mono (d.logical_le hop) hr.opens⟩

/-- A bracket after `NOT` is a condition. -/
theorem isCondition_not {text : String} {g : Grouping} (hunit : g.isUnit = true)
    (hfits : g.fits d.level = true) : (before .not text g).IsCondition d :=
  ⟨fits_before.2 ⟨hfits, opensAbove_of_isUnit hunit _⟩, rfl,
    closesAt_before.2 ⟨d.and_le_not, closesAt_of_isUnit hunit _⟩⟩

/-- To ask whether an operand is null is a condition that joins no others. -/
theorem isCondition_isNull {text : String} {g : Grouping} (h : g.IsOperand d) :
    (after .isNull text g).IsCondition d := by
  have htest := d.isNull_le
  have hminus := d.testLevel_lt_minus
  exact ⟨fits_after.2 ⟨h.fits, h.closesAt (by omega)⟩,
    opensAbove_after.2 ⟨d.and_lt_isNull, h.opensAbove _⟩, rfl⟩

/-- A match of values is a condition. -/
theorem isCondition_like {text : String} {subject pattern : Grouping} (hs : subject.IsValue d)
    (hp : pattern.IsValue d) : (between .like text subject pattern).IsCondition d := by
  have hand := d.and_lt_escape
  have hescape := d.escape_le_like
  have htest := d.like_le
  have hcloses : subject.closesAt d.level (d.level .like) = true := closesAt_mono (by omega) hs.closes
  have hopens : pattern.opensAbove d.level (d.level .like) = true := opensAbove_mono htest hp.opens
  refine ⟨fits_between.2 ⟨hs.fits, hp.fits, hcloses, hopens⟩, ?_, ?_⟩
  · exact opensAbove_between.2 ⟨by omega, hs.isCondition.opens⟩
  · exact closesAt_between.2 ⟨by omega, hp.isCondition.closes⟩

/-- A match of values with an escape character is a condition. -/
theorem isCondition_escape {text text' : String} {subject pattern escape : Grouping}
    (hs : subject.IsValue d) (hp : pattern.IsValue d) (he : escape.IsValue d) :
    (between .escape text' (between .like text subject pattern) escape).IsCondition d := by
  have hlike := (@isCondition_like d text subject pattern hs hp).fits
  have hand := d.and_lt_escape
  have hescape := d.escape_le_like
  have htest := d.like_le
  have hcloses : (between .like text subject pattern).closesAt d.level (d.level .escape) = true :=
    closesAt_between.2 ⟨hescape, closesAt_mono (by omega) hp.closes⟩
  refine ⟨fits_between.2 ⟨hlike, he.fits, hcloses, opensAbove_mono (by omega) he.opens⟩, ?_, ?_⟩
  · exact opensAbove_between.2 ⟨hand, opensAbove_between.2 ⟨by omega, hs.isCondition.opens⟩⟩
  · exact closesAt_between.2 ⟨by omega, he.isCondition.closes⟩

end Grouping

end Sql

end QueryPipeline
