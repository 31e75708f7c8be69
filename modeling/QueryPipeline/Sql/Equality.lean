import QueryPipeline.Sql.Scalar

/-!
# Equality of scalars and selects

Two scalars are equal when all of their parts are, down to types, mappings and contexts. The main
statement, `Scalar.same_iff_eq`, makes the comparison a decision of equality.
-/

set_option autoImplicit false

namespace QueryPipeline.Sql

mutual

/-- Two scalars have equal parts. -/
def Scalar.same : Scalar → Scalar → Bool
  | ⟨n, t, m, c, v⟩, ⟨n', t', m', c', v'⟩ => n.same n' && t == t' && m == m' && c == c' && v == v'

/-- Two nodes have the same form and equal parts. -/
def Node.same : Node → Node → Bool
  | .column t n, .column t' n' => t == t' && n == n'
  | .constant v, .constant v' => v == v'
  | .parameter n, .parameter n' => n == n'
  | .binary o l r, .binary o' l' r' => o == o' && l.same l' && r.same r'
  | .not s, .not s' => s.same s'
  | .negate s, .negate s' => s.same s'
  | .isNull s n, .isNull s' n' => s.same s' && n == n'
  | .function n s r as, .function n' s' r' as' =>
    n == n' && s == s' && sameOption r r' && sameScalars as as'
  | .case bs o, .case bs' o' => sameBranches bs bs' && sameOption o o'
  | .existsIn s n, .existsIn s' n' => s.same s' && n == n'
  | .like s p e, .like s' p' e' => s.same s' && p.same p' && sameOption e e'
  | .cast s, .cast s' => s.same s'
  | .fragment s, .fragment s' => s == s'
  | _, _ => false

/-- Both scalars are missing, or both are there and equal. -/
def sameOption : Option Scalar → Option Scalar → Bool
  | none, none => true
  | some s, some s' => s.same s'
  | _, _ => false

/-- The lists hold equal scalars in the same order. -/
def sameScalars : List Scalar → List Scalar → Bool
  | [], [] => true
  | s :: rest, s' :: rest' => s.same s' && sameScalars rest rest'
  | _, _ => false

/-- The lists hold equal branches in the same order. -/
def sameBranches : List CaseBranch → List CaseBranch → Bool
  | [], [] => true
  | ⟨t, r⟩ :: rest, ⟨t', r'⟩ :: rest' => t.same t' && r.same r' && sameBranches rest rest'
  | _, _ => false

/-- Two selects have equal parts. -/
def Select.same : Select → Select → Bool
  | ⟨ts, cs, ss, p, os, l, o, d⟩, ⟨ts', cs', ss', p', os', l', o', d'⟩ =>
    sameTables ts ts' && sameColumns cs cs' && ss == ss' && sameOption p p' && sameKeys os os'
      && sameOption l l' && sameOption o o' && d == d'

/-- The lists hold equal sources in the same order. -/
def sameTables : List TableSource → List TableSource → Bool
  | [], [] => true
  | .table n s a :: rest, .table n' s' a' :: rest' =>
    n == n' && s == s' && a == a' && sameTables rest rest'
  | .subquery s a :: rest, .subquery s' a' :: rest' =>
    s.same s' && a == a' && sameTables rest rest'
  | _, _ => false

/-- The lists hold equal columns in the same order. -/
def sameColumns : List OutputColumn → List OutputColumn → Bool
  | [], [] => true
  | ⟨e, a⟩ :: rest, ⟨e', a'⟩ :: rest' => e.same e' && a == a' && sameColumns rest rest'
  | _, _ => false

/-- The lists hold equal keys in the same order. -/
def sameKeys : List SortKey → List SortKey → Bool
  | [], [] => true
  | ⟨e, a⟩ :: rest, ⟨e', a'⟩ :: rest' => e.same e' && a == a' && sameKeys rest rest'
  | _, _ => false

end

mutual

/-- The comparison of scalars decides their equality. -/
theorem Scalar.same_iff_eq : ∀ a b : Scalar, a.same b = true ↔ a = b
  | ⟨n, t, m, c, v⟩, ⟨n', t', m', c', v'⟩ => by
    simp [Scalar.same, n.same_iff_eq n', and_assoc]

/-- The comparison of nodes decides their equality. -/
theorem Node.same_iff_eq : ∀ a b : Node, a.same b = true ↔ a = b
  | .column _ _, b => by cases b <;> simp [Node.same]
  | .constant _, b => by cases b <;> simp [Node.same]
  | .parameter _, b => by cases b <;> simp [Node.same]
  | .binary o l r, b => by
    cases b <;> simp [Node.same, l.same_iff_eq, r.same_iff_eq, and_assoc]
  | .not s, b => by cases b <;> simp [Node.same, s.same_iff_eq]
  | .negate s, b => by cases b <;> simp [Node.same, s.same_iff_eq]
  | .isNull s n, b => by cases b <;> simp [Node.same, s.same_iff_eq]
  | .function n s r as, b => by
    cases b <;> simp [Node.same, sameOption_iff_eq r, sameScalars_iff_eq as, and_assoc]
  | .case bs o, b => by
    cases b <;> simp [Node.same, sameBranches_iff_eq bs, sameOption_iff_eq o]
  | .existsIn s n, b => by cases b <;> simp [Node.same, s.same_iff_eq]
  | .like s p e, b => by
    cases b <;> simp [Node.same, s.same_iff_eq, p.same_iff_eq, sameOption_iff_eq e, and_assoc]
  | .cast s, b => by cases b <;> simp [Node.same, s.same_iff_eq]
  | .fragment _, b => by cases b <;> simp [Node.same]

/-- The comparison of scalars that may be missing decides their equality. -/
theorem sameOption_iff_eq : ∀ a b : Option Scalar, sameOption a b = true ↔ a = b
  | none, b => by cases b <;> simp [sameOption]
  | some s, b => by cases b <;> simp [sameOption, s.same_iff_eq]

/-- The comparison of lists of scalars decides their equality. -/
theorem sameScalars_iff_eq : ∀ as bs : List Scalar, sameScalars as bs = true ↔ as = bs
  | [], bs => by cases bs <;> simp [sameScalars]
  | s :: rest, bs => by
    cases bs <;> simp [sameScalars, s.same_iff_eq, sameScalars_iff_eq rest]

/-- The comparison of the branches of two `CASE` decides their equality. -/
theorem sameBranches_iff_eq : ∀ as bs : List CaseBranch, sameBranches as bs = true ↔ as = bs
  | [], bs => by cases bs <;> simp [sameBranches]
  | ⟨t, r⟩ :: rest, bs => by
    rcases bs with _ | ⟨⟨t', r'⟩, rest'⟩ <;>
      simp [sameBranches, t.same_iff_eq, r.same_iff_eq, sameBranches_iff_eq rest]

/-- The comparison of selects decides their equality. -/
theorem Select.same_iff_eq : ∀ a b : Select, a.same b = true ↔ a = b
  | ⟨ts, cs, ss, p, os, l, o, d⟩, ⟨ts', cs', ss', p', os', l', o', d'⟩ => by
    simp [Select.same, sameTables_iff_eq ts, sameColumns_iff_eq cs, sameOption_iff_eq p,
      sameKeys_iff_eq os, sameOption_iff_eq l, sameOption_iff_eq o, and_assoc]

/-- The comparison of the sources of two selects decides their equality. -/
theorem sameTables_iff_eq : ∀ as bs : List TableSource, sameTables as bs = true ↔ as = bs
  | [], bs => by cases bs <;> simp [sameTables]
  | .table n s a :: rest, bs => by
    rcases bs with _ | ⟨⟨⟩ | ⟨⟩, rest'⟩ <;>
      simp [sameTables, sameTables_iff_eq rest, and_assoc]
  | .subquery s a :: rest, bs => by
    rcases bs with _ | ⟨⟨⟩ | ⟨⟩, rest'⟩ <;>
      simp [sameTables, s.same_iff_eq, sameTables_iff_eq rest]

/-- The comparison of the columns of two selects decides their equality. -/
theorem sameColumns_iff_eq : ∀ as bs : List OutputColumn, sameColumns as bs = true ↔ as = bs
  | [], bs => by cases bs <;> simp [sameColumns]
  | ⟨e, a⟩ :: rest, bs => by
    rcases bs with _ | ⟨⟨e', a'⟩, rest'⟩ <;>
      simp [sameColumns, e.same_iff_eq, sameColumns_iff_eq rest]

/-- The comparison of keys of orderings decides their equality. -/
theorem sameKeys_iff_eq : ∀ as bs : List SortKey, sameKeys as bs = true ↔ as = bs
  | [], bs => by cases bs <;> simp [sameKeys]
  | ⟨e, a⟩ :: rest, bs => by
    rcases bs with _ | ⟨⟨e', a'⟩, rest'⟩ <;>
      simp [sameKeys, e.same_iff_eq, sameKeys_iff_eq rest]

end

instance : DecidableEq Scalar := fun a b => decidable_of_iff _ (a.same_iff_eq b)

instance : DecidableEq Select := fun a b => decidable_of_iff _ (a.same_iff_eq b)

instance : DecidableEq (List TableSource) := fun a b => decidable_of_iff _ (sameTables_iff_eq a b)

instance : DecidableEq (List SortKey) := fun a b => decidable_of_iff _ (sameKeys_iff_eq a b)

end QueryPipeline.Sql
