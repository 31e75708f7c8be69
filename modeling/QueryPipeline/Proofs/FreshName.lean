import Mathlib.Data.List.Basic
import QueryPipeline.Sql.FreshName

/-!
# Fresh names are fresh

One more numbered name is tried than names are taken, and no two of them are equal, so one of them is
free. A name that `freshName` gives is therefore never one of those that are taken.
-/

set_option autoImplicit false

namespace QueryPipeline.Sql

/-- Different numbers are written differently. -/
theorem toString_nat_injective {m n : Nat} (h : toString m = toString n) : m = n := by
  have hdigits : Nat.toDigits 10 m = Nat.toDigits 10 n := by
    rw [← Nat.toList_repr, ← Nat.toList_repr]
    exact congrArg String.toList h
  rw [← Nat.ofDigitChars_ten_toDigits (n := m), hdigits, Nat.ofDigitChars_ten_toDigits]

/-- No numbered name is listed twice. -/
theorem numberedNames_nodup (taken : List String) (preferred : String) :
    (numberedNames taken preferred).Nodup := by
  apply List.Pairwise.map (R := (· ≠ ·)) _ _ List.nodup_range
  intro m n hne h
  exact hne (toString_nat_injective ((String.append_right_inj preferred).1 h))

/-- One of the numbered names is free. -/
theorem exists_numberedName_not_mem (taken : List String) (preferred : String) :
    ∃ name ∈ numberedNames taken preferred, name ∉ taken := by
  by_contra h
  push Not at h
  have hlen := (numberedNames_nodup taken preferred).length_le_of_subset h
  simp only [numberedNames, List.length_map, List.length_range] at hlen
  omega

/-- A fresh name is not taken. -/
theorem freshName_not_mem (taken : List String) (preferred : String) :
    freshName taken preferred ∉ taken := by
  unfold freshName
  split
  · obtain ⟨name, hmem, hfree⟩ := exists_numberedName_not_mem taken preferred
    cases hf : (numberedNames taken preferred).find? (· ∉ taken) with
    | none =>
      have := List.find?_eq_none.1 hf name hmem
      simp [hfree] at this
    | some found => simpa using List.find?_some hf
  · assumption

end QueryPipeline.Sql
