import Mathlib.Data.List.Nodup
import QueryPipeline.Proofs.AddedColumns

/-!
# Names that are given one after the other

A name that is free is given as it is. For one that is taken, numbers are tried from zero on until the numbered
name is free. `Searches` is this search without a bound. It always ends: the numbers that fail are those of names
that are taken, and no number fails twice, so it tries no more of them than names are taken. However the names of
a sequence are chosen, each is given only once.
-/

set_option autoImplicit false

namespace QueryPipeline.Sql

/-- From a number on, the search for a numbered name that is free ends with a name. -/
inductive Searches (taken : List String) (preferred : String) : Nat → String → Prop
  | free {n : Nat} (h : preferred ++ toString n ∉ taken) :
      Searches taken preferred n (preferred ++ toString n)
  | next {n : Nat} {name : String} (h : preferred ++ toString n ∈ taken)
      (hnext : Searches taken preferred (n + 1) name) : Searches taken preferred n name

/-- A name that is given: the preferred one if it is free, and otherwise the one at which the search ends, which
has the smallest number that makes it free. -/
structure Gives (taken : List String) (preferred name : String) : Prop where
  fresh : name ∉ taken
  unchanged : preferred ∉ taken → name = preferred
  searched : preferred ∈ taken → ∀ other, Searches taken preferred 0 other ↔ other = name
  smallest : preferred ∈ taken → ∃ n < taken.length, name = preferred ++ toString n ∧
    ∀ m < n, preferred ++ toString m ∈ taken

section Search

variable {taken : List String} {preferred : String}

/-- The search ends with at most one name. -/
theorem Searches.unique {n : Nat} {name other : String} (h : Searches taken preferred n name)
    (hother : Searches taken preferred n other) : other = name := by
  induction h with
  | free hfree =>
    cases hother with
    | free _ => rfl
    | next htaken _ => exact absurd htaken hfree
  | next htaken _ ih =>
    cases hother with
    | free hfree => exact absurd htaken hfree
    | next _ hnext => exact ih hnext

/-- The search ends at the first number that is free. -/
theorem searches_of_smallest {n : Nat} (hfree : preferred ++ toString n ∉ taken)
    (hsmaller : ∀ m < n, preferred ++ toString m ∈ taken) (start : Nat) (hstart : start ≤ n) :
    Searches taken preferred start (preferred ++ toString n) := by
  -- the numbers that are left to try become fewer
  induction hleft : n - start generalizing start with
  | zero =>
    obtain rfl : start = n := by omega
    exact .free hfree
  | succ left ih => exact .next (hsmaller start (by omega)) (ih (start + 1) (by omega) (by omega))

/-- Numbers that all fail are fewer than the names that are taken, of which one has no number. -/
theorem lt_length_of_smaller {n : Nat} (hpreferred : preferred ∈ taken)
    (hsmaller : ∀ m < n, preferred ++ toString m ∈ taken) : n < taken.length := by
  have hinjective : Function.Injective fun m : Nat => preferred ++ toString m := fun m m' h =>
    toString_nat_injective ((String.append_right_inj preferred).1 h)
  have hnodup : (preferred :: (List.range n).map fun m => preferred ++ toString m).Nodup := by
    refine List.nodup_cons.2 ⟨fun h => ?_, List.nodup_range.map hinjective⟩
    obtain ⟨m, -, h⟩ := List.mem_map.1 h
    exact Nat.repr_ne_empty (String.append_eq_left_iff.1 h)
  have hsubset : preferred :: (List.range n).map (fun m => preferred ++ toString m) ⊆ taken := by
    intro name h
    rcases List.mem_cons.1 h with rfl | h
    · exact hpreferred
    · obtain ⟨m, hm, rfl⟩ := List.mem_map.1 h
      exact hsmaller m (List.mem_range.1 hm)
  have hlength := hnodup.length_le_of_subset hsubset
  rw [List.length_cons, List.length_map, List.length_range] at hlength
  omega

/-- A name that is taken gets the smallest number that makes it free. -/
theorem freshName_of_mem (h : preferred ∈ taken) :
    ∃ n : Nat, freshName taken preferred = preferred ++ toString n ∧ preferred ++ toString n ∉ taken ∧
      ∀ m < n, preferred ++ toString m ∈ taken := by
  obtain ⟨name, hmem, hfree⟩ := exists_numberedName_not_mem taken preferred
  have hsome : ((numberedNames taken preferred).find? (· ∉ taken)).isSome := by
    rw [List.find?_isSome]
    exact ⟨name, hmem, by simpa using hfree⟩
  obtain ⟨found, hfound⟩ := Option.isSome_iff_exists.1 hsome
  obtain ⟨hnew, n, hn, hget, hbefore⟩ := List.find?_eq_some_iff_getElem.1 hfound
  have hfound' : found = preferred ++ toString n := by
    rw [← hget]
    simp [numberedNames]
  refine ⟨n, ?_, ?_, fun m hm => ?_⟩
  · rw [freshName, if_pos h, hfound, Option.getD_some, hfound']
  · simpa [hfound'] using hnew
  · simpa [numberedNames] using hbefore m hm

/-- A name that is free is given as it is, and for one that is taken the search ends. -/
theorem freshName_gives (taken : List String) (preferred : String) :
    Gives taken preferred (freshName taken preferred) where
  fresh := freshName_not_mem taken preferred
  unchanged h := if_neg h
  searched h other := by
    obtain ⟨n, hname, hfree, hsmaller⟩ := freshName_of_mem h
    have hends := searches_of_smallest hfree hsmaller 0 (Nat.zero_le n)
    rw [hname]
    constructor
    · exact fun hother => hends.unique hother
    · rintro rfl
      exact hends
  smallest h := by
    obtain ⟨n, hname, -, hsmaller⟩ := freshName_of_mem h
    exact ⟨n, lt_length_of_smaller h hsmaller, hname, hsmaller⟩

end Search

/-- The names that are given for a sequence of preferred ones. What has been given is taken from then on. -/
def freshNames (taken : List String) : List String → List String
  | [] => []
  | preferred :: rest =>
    freshName taken preferred :: freshNames (taken ++ [freshName taken preferred]) rest

/-- Each name that is preferred gets a name. -/
theorem length_freshNames (taken preferred : List String) :
    (freshNames taken preferred).length = preferred.length := by
  induction preferred generalizing taken with
  | nil => rfl
  | cons first rest ih => simp [freshNames, ih]

/-- Names that are given differ from each other and from those that were taken before. -/
theorem nodup_freshNames {taken : List String} (h : taken.Nodup) (preferred : List String) :
    (taken ++ freshNames taken preferred).Nodup := by
  induction preferred generalizing taken with
  | nil => simpa [freshNames] using h
  | cons first rest ih =>
    have hnext : (taken ++ [freshName taken first]).Nodup := by
      rw [List.nodup_append]
      refine ⟨h, List.nodup_singleton _, ?_⟩
      rintro name hname _ hlast rfl
      exact freshName_not_mem taken first (List.mem_singleton.1 hlast ▸ hname)
    simpa [freshNames] using ih hnext

/-- Every name of a sequence is given when those before it are taken. -/
theorem getElem?_freshNames {preferred : List String} {i : Nat} {first : String}
    (h : preferred[i]? = some first) (taken : List String) :
    (freshNames taken preferred)[i]? =
      some (freshName (taken ++ (freshNames taken preferred).take i) first) := by
  induction preferred generalizing taken i with
  | nil => simp at h
  | cons preferred rest ih =>
    cases i with
    | zero =>
      obtain rfl : preferred = first := by simpa using h
      simp [freshNames]
    | succ i => simpa [freshNames] using ih (by simpa using h) (taken ++ [freshName taken preferred])

/-- A projection that gives names gives them one after the other: those of new columns, which have a name of their
own or the one that was asked for. -/
theorem Projection.names_addAll (p : Projection) (hnamed : p.named = true)
    (requests : List (Scalar × String)) :
    ∃ preferred, (p.addAll requests).1.names = p.names ++ freshNames p.names preferred ∧
      preferred.Sublist (requests.map fun r => r.1.ownName?.getD r.2) := by
  induction requests generalizing p with
  | nil => exact ⟨[], by simp [freshNames], .refl _⟩
  | cons request rest ih =>
    have hadd := (p.add_grows request.1 request.2).1
    obtain ⟨preferred, hnames, hsub⟩ := ih _ (hadd.named.trans hnamed)
    rcases p.add_cases request.1 request.2 with ⟨position, -, hold⟩ | ⟨-, hnew⟩
    · rw [hold] at hnames
      exact ⟨preferred, by rw [addAll_cons, hold, hnames], hsub.cons _⟩
    · refine ⟨request.1.ownName?.getD request.2 :: preferred, ?_, List.Sublist.cons_cons _ hsub⟩
      rw [addAll_cons, hnames, hnew, names_withColumn, newName, if_pos hnamed]
      simp [freshNames, Scalar.asValueForm, Scalar.inContext, Scalar.ownName?]

/-- The columns of a subquery get their names one after the other, those of the shape before those of the keys. -/
theorem Draft.names_subqueryProjection (d : Draft) :
    ∃ preferred, d.subqueryProjection.names = freshNames [] preferred ∧
      preferred.Sublist ((d.shape.requests ++ keyRequests d.orderings).map fun r => r.1.ownName?.getD r.2) := by
  rw [d.subqueryProjection_eq]
  exact Projection.names_addAll ⟨true, []⟩ rfl (d.shape.requests ++ keyRequests d.orderings)

/-- Names that are given one after the other are one for each that is preferred and differ from each other. At
every place of the sequence the search ends, after no more steps than names were given before: the preferred name
is given if it was not given before, and otherwise the preferred name with the smallest number that makes it
new. -/
theorem given_names_fresh (preferred : List String) :
    (freshNames [] preferred).length = preferred.length ∧ (freshNames [] preferred).Nodup ∧
      ∀ (i : Nat) (first : String), preferred[i]? = some first →
        ∃ name, (freshNames [] preferred)[i]? = some name ∧
          Gives ((freshNames [] preferred).take i) first name := by
  refine ⟨length_freshNames [] preferred, ?_, fun i first hfirst => ?_⟩
  · simpa using nodup_freshNames List.nodup_nil preferred
  · refine ⟨_, getElem?_freshNames hfirst [], ?_⟩
    rw [List.nil_append]
    exact freshName_gives _ first

/-- A numbered name is skipped when it was given for its own sake. -/
theorem numberedBefore_fresh :
    freshNames [] ["Name0", "Name", "Name", "Name"] = ["Name0", "Name", "Name1", "Name2"] ∧
      Gives ["Name0", "Name"] "Name" "Name1" := by
  have hnames : freshNames [] ["Name0", "Name", "Name", "Name"] = ["Name0", "Name", "Name1", "Name2"] := by
    decide +kernel
  obtain ⟨name, hname, hgives⟩ :=
    (given_names_fresh ["Name0", "Name", "Name", "Name"]).2.2 2 "Name" (by decide)
  rw [hnames] at hname hgives
  cases hname
  exact ⟨hnames, hgives⟩

end QueryPipeline.Sql
