import Mathlib.Tactic.Common
import QueryPipeline.Sql.Scalar

/-!
# Interpretations

An interpretation says what constants, parameters and operators are on some values, when a value counts as
true, and how values are ordered. Rows are brought into an order by keys, repeated rows are left out, and a
window keeps some of the rows; this module has what is known of these three in general.
-/

set_option autoImplicit false

namespace QueryPipeline

open Sql Std

/-- The members of a list that are left when so many at the front are left out and so many after them are
kept. -/
def window {α : Type} (offset limit : Option Nat) (l : List α) : List α :=
  match limit with
  | some limit => (l.drop (offset.getD 0)).take limit
  | none => l.drop (offset.getD 0)

/-- What literals, parameters and operators are on some values. Truth has three values; a condition holds
when it is `some true`. Any value may be asked for as a number of rows. -/
structure Interpretation (V : Type) where
  constant : Literal → V
  parameter : String → V
  fragment : String → V
  binary : ScalarOp → V → V → V
  not : V → V
  negate : V → V
  /-- A value is absent, or is not. -/
  isNull : V → Bool → V
  function : String → Option String → Option V → List V → V
  case : List (V × V) → Option V → V
  /-- There are rows, or there are none. -/
  existsIn : Bool → Bool → V
  like : V → V → Option V → V
  cast : V → V
  truth : V → Option Bool
  compare : V → V → Ordering
  count : V → Nat
  truth_true : truth (constant (.boolean true)) = some true
  truth_and (a b : V) : truth (binary .and a b) = some true ↔ truth a = some true ∧ truth b = some true
  compare_trans : TransCmp compare

/-- A value that rows are ordered by, in its direction. -/
structure KeyValue (V : Type) where
  value : V
  ascending : Bool

/-- The values of columns, by the alias of their source and their name. -/
abbrev Bindings (V : Type) := String → String → V

/-- The rows of tables, by their name and schema. A row has a value for every column. -/
abbrev Database (V : Type) := String → Option String → List (String → V)

namespace Interpretation

variable {V α β : Type} (I : Interpretation V)

/-- The value is true, and neither false nor unknown. -/
def holds (v : V) : Bool := I.truth v = some true

/-- The order of two values in their direction. Two directions never meet under the same key. -/
def compareKey : KeyValue V → KeyValue V → Ordering
  | ⟨a, true⟩, ⟨b, true⟩ => I.compare a b
  | ⟨a, false⟩, ⟨b, false⟩ => I.compare b a
  | ⟨_, true⟩, ⟨_, false⟩ => .lt
  | ⟨_, false⟩, ⟨_, true⟩ => .gt

/-- The order of two rows by their keys, where later keys decide between rows that are equal so far. -/
def compareKeys : List (KeyValue V) → List (KeyValue V) → Ordering := List.compareLex I.compareKey

/-- A list in the order of keys; members that are equal in them keep their order. -/
def sortOn (key : α → List (KeyValue V)) (l : List α) : List α :=
  l.mergeSort fun a b => (I.compareKeys (key a) (key b)).isLE

/-- Nothing has a value: every column is the absence of one. -/
def noBindings : Bindings V := fun _ _ => I.constant .null

/-- The columns of a row under an alias, next to those that are there already. -/
def bindRow (aliasName : String) (row : String → V) (ρ : Bindings V) : Bindings V :=
  fun table column => if table = aliasName then row column else ρ table column

/-- The value of a row under the name of its column. -/
def valueAt (names : List (Option String)) (row : List V) (name : String) : V :=
  ((names.zip row).lookup (some name)).getD (I.constant .null)

instance : TransCmp I.compareKey where
  eq_swap := by
    rintro ⟨a, _ | _⟩ ⟨b, _ | _⟩
    · exact I.compare_trans.eq_swap
    · rfl
    · rfl
    · exact I.compare_trans.eq_swap
  isLE_trans := by
    rintro ⟨a, _ | _⟩ ⟨b, _ | _⟩ ⟨c, _ | _⟩ hab hbc
    · exact I.compare_trans.isLE_trans hbc hab
    · cases hbc
    · cases hab
    · cases hab
    · rfl
    · cases hbc
    · rfl
    · exact I.compare_trans.isLE_trans hab hbc

instance : TransCmp I.compareKeys := inferInstanceAs (TransCmp (List.compareLex I.compareKey))

/-- Two values are equal as keys in one direction when they are in the other. -/
theorem compareKey_eq_eq {a b : V} (ascending : Bool) :
    I.compareKey ⟨a, ascending⟩ ⟨b, ascending⟩ = .eq ↔ I.compare a b = .eq := by
  have := I.compare_trans
  cases ascending
  · exact OrientedCmp.eq_comm
  · exact Iff.rfl

section Order

variable {key key' : α → List (KeyValue V)} {l l' : List α}

/-- Elements are sorted alike before and after something is made of each. -/
theorem map_sortOn (f : β → α) (l : List β) :
    I.sortOn key (l.map f) = (I.sortOn (fun b => key (f b)) l).map f := by
  refine Eq.symm (List.map_mergeSort fun a _ b _ => ?_)
  rfl

/-- Keys that order the members of a list alike bring it into the same order. -/
theorem sortOn_congr (h : ∀ a ∈ l, ∀ b ∈ l,
    I.compareKeys (key a) (key b) = I.compareKeys (key' a) (key' b)) :
    I.sortOn key l = I.sortOn key' l := by
  have hmap : (I.sortOn key l).map id = I.sortOn key' (l.map id) :=
    List.map_mergeSort fun a ha b hb => congrArg Ordering.isLE (h a ha b hb)
  simpa using hmap

/-- Sorting neither adds nor loses elements. -/
theorem mem_sortOn {a : α} : a ∈ I.sortOn key l ↔ a ∈ l := List.mem_mergeSort

/-- What is left of an ordered list is in order. -/
theorem sortOn_of_sublist (h : l'.Sublist (I.sortOn key l)) : I.sortOn key l' = l' := by
  have hsorted : (I.sortOn key l).Pairwise fun a b => (I.compareKeys (key a) (key b)).isLE := by
    refine List.pairwise_mergeSort (fun _ _ _ => TransCmp.isLE_trans) (fun a b => ?_) l
    have hswap : I.compareKeys (key b) (key a) = (I.compareKeys (key a) (key b)).swap :=
      OrientedCmp.eq_swap
    rw [hswap]
    cases I.compareKeys (key a) (key b) <;> rfl
  exact List.mergeSort_of_pairwise (hsorted.sublist h)

/-- Without keys a list keeps its order. -/
theorem sortOn_of_nil (h : ∀ a ∈ l, key a = []) : I.sortOn key l = l := by
  refine List.mergeSort_of_pairwise (List.pairwise_of_forall_mem_list fun a ha b hb => ?_)
  rw [h a ha, h b hb]
  rfl

end Order

end Interpretation

section Lists

variable {α β : Type}

/-- Elements are cut off alike before and after something is made of each. -/
theorem map_window (f : α → β) (offset limit : Option Nat) (l : List α) :
    window offset limit (l.map f) = (window offset limit l).map f := by
  unfold window
  split <;> simp

/-- What is left between offset and limit keeps its order. -/
theorem window_sublist (offset limit : Option Nat) (l : List α) :
    (window offset limit l).Sublist l := by
  unfold window
  split
  · exact (List.take_sublist _ _).trans (List.drop_sublist _ _)
  · exact List.drop_sublist _ _

variable [BEq α] [LawfulBEq α] [BEq β] [LawfulBEq β]

/-- A function that tells the members of a list apart finds the same repetitions. -/
theorem map_eraseDups {f : α → β} :
    ∀ {l : List α}, (∀ a ∈ l, ∀ b ∈ l, f a = f b → a = b) → (l.map f).eraseDups = l.eraseDups.map f
  | [], _ => rfl
  | a :: rest, h => by
    have hfilter : rest.filter ((fun b => !b == f a) ∘ f) = rest.filter fun b => !b == a := by
      refine List.filter_congr fun b hb => ?_
      have : f b = f a ↔ b = a :=
        ⟨h b (List.mem_cons_of_mem _ hb) a List.mem_cons_self, congrArg f⟩
      rw [Function.comp_apply, Bool.eq_iff_iff]
      simp [this]
    have hrest : ∀ b ∈ rest.filter (fun b => !b == a), b ∈ a :: rest := fun b hb =>
      List.mem_cons_of_mem _ (List.mem_filter.1 hb).1
    rw [List.map_cons, List.eraseDups_cons, List.eraseDups_cons, List.map_cons, List.filter_map, hfilter,
      map_eraseDups fun b hb c hc => h b (hrest b hb) c (hrest c hc)]
  -- what is left of the rest is no part of the list, only shorter
termination_by l => l.length
decreasing_by exact Nat.lt_succ_of_le (List.length_filter_le _ _)

/-- A list without repetitions has none that can be left out. -/
theorem eraseDups_eraseDups : ∀ l : List α, l.eraseDups.eraseDups = l.eraseDups
  | [] => rfl
  | a :: rest => by
    have hfilter : (rest.filter fun b => !b == a).eraseDups.filter (fun b => !b == a)
        = (rest.filter fun b => !b == a).eraseDups :=
      List.filter_eq_self.2 fun b hb => (List.mem_filter.1 (List.mem_eraseDups.1 hb)).2
    rw [List.eraseDups_cons, List.eraseDups_cons, hfilter, eraseDups_eraseDups]
termination_by l => l.length
decreasing_by exact Nat.lt_succ_of_le (List.length_filter_le _ _)

end Lists

end QueryPipeline
