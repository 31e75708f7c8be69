import QueryPipeline.Proofs.Meaning

/-!
# Sequences

What is known of sequences in general. Limiting a sequence takes a window of the sorted one. Two sequences are
alike when they have the same data in the same order and their keys order them alike, although the keys may
differ; no operator can tell such sequences apart.
-/

set_option autoImplicit false

namespace QueryPipeline

namespace Sequence

variable {V : Type} (I : Interpretation V)

/-- A sequence without so many elements at the front, and of the others so many. -/
def limitedBy (offset limit : Option Nat) (s : Sequence V) : Sequence V :=
  let s := match offset with
    | some n => s.skip I n
    | none => s
  match limit with
  | some n => s.take I n
  | none => s

variable {I}

/-- What is left of a sorted sequence is sorted. -/
theorem sorted_of_sublist {s s' : Sequence V} (h : s'.Sublist (s.sorted I)) : s'.sorted I = s' :=
  I.sortOn_of_sublist h

/-- A sequence without keys is sorted. -/
theorem sorted_of_nil {s : Sequence V} (h : ∀ r ∈ s, r.2 = []) : s.sorted I = s := I.sortOn_of_nil h

/-- A limited sequence is a window of the sorted one, and without limits nothing changes. -/
theorem limitedBy_eq (offset limit : Option Nat) (s : Sequence V) :
    s.limitedBy I offset limit =
      window offset limit (if offset.isSome || limit.isSome then s.sorted I else s) := by
  cases offset with
  | none => cases limit <;> simp [limitedBy, window, take]
  | some n =>
    cases limit with
    | none => simp [limitedBy, window, skip]
    | some m =>
      have hsorted : sorted I (List.drop n (s.sorted I)) = List.drop n (s.sorted I) :=
        sorted_of_sublist (List.drop_sublist _ _)
      simp [limitedBy, window, take, skip, hsorted]

/-- Sorting a limited sequence limits the sorted one. -/
theorem sorted_limitedBy (offset limit : Option Nat) (s : Sequence V) :
    (s.limitedBy I offset limit).sorted I = window offset limit (s.sorted I) := by
  rw [limitedBy_eq]
  split
  · exact sorted_of_sublist (window_sublist _ _ _)
  · rename_i h
    obtain ⟨rfl, rfl⟩ : offset = none ∧ limit = none := by simpa using h
    simp [window]

/-- The rows of a page are among those of the sequence. -/
theorem mem_limitedBy {offset limit : Option Nat} {s : Sequence V} {r : Datum V × List (KeyValue V)}
    (h : r ∈ s.limitedBy I offset limit) : r ∈ s := by
  rw [limitedBy_eq] at h
  have hmem := (window_sublist _ _ _).subset h
  split at hmem
  · exact I.mem_sortOn.1 hmem
  · exact hmem

/-- Data may be changed before a sequence is limited or afterwards. -/
theorem limitedBy_select (f : Datum V → Datum V) (offset limit : Option Nat) (s : Sequence V) :
    (s.select f).limitedBy I offset limit = (s.limitedBy I offset limit).select f := by
  have hsorted : (s.select f).sorted I = (s.sorted I).select f := I.map_sortOn _ _
  rw [limitedBy_eq, limitedBy_eq, hsorted, select, select, select, ← map_window]
  split <;> rfl

/-- To leave out repetitions twice is to leave them out once. -/
theorem makeDistinct_makeDistinct [DecidableEq V] (s : Sequence V) :
    s.makeDistinct.makeDistinct = s.makeDistinct := by
  simp only [makeDistinct, List.map_map, Function.comp_def, List.map_id', eraseDups_eraseDups]

/-- Two elements with two lists of keys each, which order them alike. -/
structure OrderedAlike (I : Interpretation V) (x y : Datum V × List (KeyValue V) × List (KeyValue V)) :
    Prop where
  left : x.2.1.length = y.2.1.length
  right : x.2.2.length = y.2.2.length
  compare : I.compareKeys x.2.1 y.2.1 = I.compareKeys x.2.2 y.2.2

/-- Two sequences have the same data, and their keys order them alike. -/
def Alike (I : Interpretation V) (s t : Sequence V) : Prop :=
  ∃ l : List (Datum V × List (KeyValue V) × List (KeyValue V)),
    s = l.map (fun x => (x.1, x.2.1)) ∧ t = l.map (fun x => (x.1, x.2.2)) ∧
      ∀ x ∈ l, ∀ y ∈ l, OrderedAlike I x y

/-- Rows are ordered by keys with one more in the end as by the keys before, and then by the last one. -/
theorem compareKeys_concat {ks ks' : List (KeyValue V)} (hlength : ks.length = ks'.length)
    (k k' : KeyValue V) :
    I.compareKeys (ks ++ [k]) (ks' ++ [k']) = (I.compareKeys ks ks').then (I.compareKey k k') := by
  -- with lists of different lengths a last key would meet one that is not the last
  induction ks generalizing ks' with
  | nil =>
    obtain rfl : ks' = [] := List.length_eq_zero_iff.1 hlength.symm
    simp [Interpretation.compareKeys, List.compareLex_cons_cons, List.compareLex_nil_nil]
  | cons first rest ih =>
    cases ks' with
    | nil => cases hlength
    | cons first' rest' =>
      have hrest := ih (Nat.succ.inj hlength)
      unfold Interpretation.compareKeys at hrest ⊢
      rw [List.cons_append, List.cons_append, List.compareLex_cons_cons, List.compareLex_cons_cons,
        hrest, Ordering.then_assoc]

namespace Alike

variable {s t s' : Sequence V}

/-- Sequences that are alike have the same elements in the same order. -/
theorem data_eq (h : Alike I s t) : s.map (·.1) = t.map (·.1) := by
  obtain ⟨l, rfl, rfl, -⟩ := h
  simp

/-- What is asked of the data of a sequence holds of the other one. -/
theorem all_eq (h : Alike I s t) (p : Datum V → Bool) :
    (s.all fun r => p r.1) = t.all fun r => p r.1 := by
  obtain ⟨l, rfl, rfl, -⟩ := h
  simp [Function.comp_def]

/-- A sequence whose elements all have as many keys is like itself. -/
theorem refl (h : ∀ r ∈ s, ∀ r' ∈ s, r.2.length = r'.2.length) : Alike I s s := by
  refine ⟨s.map fun r => (r.1, r.2, r.2), by simp [Function.comp_def], by simp [Function.comp_def], ?_⟩
  intro _ ha _ hb
  obtain ⟨r, hr, rfl⟩ := List.mem_map.1 ha
  obtain ⟨r', hr', rfl⟩ := List.mem_map.1 hb
  exact ⟨h r hr r' hr', h r hr r' hr', rfl⟩

/-- Sequences that are alike stay so when they are restricted. -/
theorem restrict (h : Alike I s t) (f : Datum V → Datum V) :
    Alike I (s.restrict I f) (t.restrict I f) := by
  obtain ⟨l, rfl, rfl, hl⟩ := h
  refine ⟨l.filter fun x => I.holds (valueOf I (f x.1)), ?_, ?_, ?_⟩
  · rw [Sequence.restrict, List.filter_map]
    rfl
  · rw [Sequence.restrict, List.filter_map]
    rfl
  · exact fun x hx y hy => hl x (List.mem_filter.1 hx).1 y (List.mem_filter.1 hy).1

/-- Elements may be changed as long as their keys are ordered alike. -/
theorem map {f g : Datum V × List (KeyValue V) → Datum V × List (KeyValue V)}
    {k : Datum V × List (KeyValue V) × List (KeyValue V) →
      Datum V × List (KeyValue V) × List (KeyValue V)} (h : Alike I s t)
    (hf : ∀ x, f (x.1, x.2.1) = ((k x).1, (k x).2.1)) (hg : ∀ x, g (x.1, x.2.2) = ((k x).1, (k x).2.2))
    (hk : ∀ x y, OrderedAlike I x y → OrderedAlike I (k x) (k y)) : Alike I (s.map f) (t.map g) := by
  obtain ⟨l, rfl, rfl, hl⟩ := h
  refine ⟨l.map k, by simp [hf], by simp [hg], ?_⟩
  intro _ ha _ hb
  obtain ⟨x, hx, rfl⟩ := List.mem_map.1 ha
  obtain ⟨y, hy, rfl⟩ := List.mem_map.1 hb
  exact hk x y (hl x hx y hy)

/-- Sequences that are alike stay so when something is made of their elements. -/
theorem select (h : Alike I s t) (f : Datum V → Datum V) : Alike I (s.select f) (t.select f) :=
  h.map (k := fun x => (f x.1, x.2)) (fun _ => rfl) (fun _ => rfl)
    fun _ _ hxy => ⟨hxy.left, hxy.right, hxy.compare⟩

/-- Sequences that are alike stay so when they are ordered. -/
theorem orderBy (h : Alike I s t) (f : Datum V → Datum V) (ascending : Bool) :
    Alike I (s.orderBy I f ascending) (t.orderBy I f ascending) :=
  h.map (k := fun x => (x.1, [⟨valueOf I (f x.1), ascending⟩], [⟨valueOf I (f x.1), ascending⟩]))
    (fun _ => rfl) (fun _ => rfl) fun _ _ _ => ⟨rfl, rfl, rfl⟩

/-- Sequences that are alike stay so when they are ordered by a further key. -/
theorem thenBy (h : Alike I s t) (f : Datum V → Datum V) (ascending : Bool) :
    Alike I (s.thenBy I f ascending) (t.thenBy I f ascending) := by
  refine h.map (k := fun x => (x.1, x.2.1 ++ [⟨valueOf I (f x.1), ascending⟩],
    x.2.2 ++ [⟨valueOf I (f x.1), ascending⟩])) (fun _ => rfl) (fun _ => rfl) fun x y hxy => ?_
  refine ⟨by simp [hxy.left], by simp [hxy.right], ?_⟩
  rw [compareKeys_concat hxy.left, compareKeys_concat hxy.right, hxy.compare]

/-- A key that is equal where all keys so far are may be left out. -/
theorem thenBy_right (h : Alike I s t) (f : Datum V → Datum V) (ascending : Bool)
    (hknown : ∀ r ∈ s, ∀ r' ∈ s, I.compareKeys r.2 r'.2 = .eq →
      I.compareKey ⟨valueOf I (f r.1), ascending⟩ ⟨valueOf I (f r'.1), ascending⟩ = .eq) :
    Alike I s (t.thenBy I f ascending) := by
  obtain ⟨l, rfl, rfl, hl⟩ := h
  refine ⟨l.map fun x => (x.1, x.2.1, x.2.2 ++ [⟨valueOf I (f x.1), ascending⟩]), by simp,
    by simp [Sequence.thenBy], ?_⟩
  intro _ ha _ hb
  obtain ⟨x, hx, rfl⟩ := List.mem_map.1 ha
  obtain ⟨y, hy, rfl⟩ := List.mem_map.1 hb
  have hxy := hl x hx y hy
  refine ⟨hxy.left, by simp [hxy.right], ?_⟩
  rw [compareKeys_concat hxy.right, ← hxy.compare]
  cases heq : I.compareKeys x.2.1 y.2.1 with
  | lt => rfl
  | gt => rfl
  | eq =>
    exact (hknown _ (List.mem_map_of_mem hx) _ (List.mem_map_of_mem hy) heq).symm

/-- Sequences that are alike are sorted alike. -/
theorem sorted (h : Alike I s t) : Alike I (s.sorted I) (t.sorted I) := by
  obtain ⟨l, rfl, rfl, hl⟩ := h
  refine ⟨I.sortOn (·.2.1) l, I.map_sortOn _ _, ?_, ?_⟩
  · rw [I.sortOn_congr fun x hx y hy => (hl x hx y hy).compare]
    exact I.map_sortOn _ _
  · exact fun x hx y hy => hl x (I.mem_sortOn.1 hx) y (I.mem_sortOn.1 hy)

/-- Sequences that are alike stay so when their first elements are left out. -/
theorem drop (h : Alike I s t) (n : Nat) : Alike I (List.drop n s) (List.drop n t) := by
  obtain ⟨l, rfl, rfl, hl⟩ := h
  refine ⟨l.drop n, (List.map_drop).symm, (List.map_drop).symm, ?_⟩
  exact fun x hx y hy => hl x (List.mem_of_mem_drop hx) y (List.mem_of_mem_drop hy)

/-- Sequences that are alike stay so when only their first elements are kept. -/
theorem take (h : Alike I s t) (n : Nat) : Alike I (List.take n s) (List.take n t) := by
  obtain ⟨l, rfl, rfl, hl⟩ := h
  refine ⟨l.take n, (List.map_take).symm, (List.map_take).symm, ?_⟩
  exact fun x hx y hy => hl x (List.mem_of_mem_take hx) y (List.mem_of_mem_take hy)

/-- Sequences that are alike stay so when repetitions are left out. -/
theorem makeDistinct [DecidableEq V] (h : Alike I s t) : Alike I s.makeDistinct t.makeDistinct := by
  rw [Sequence.makeDistinct, Sequence.makeDistinct, h.data_eq]
  refine refl fun r hr r' hr' => ?_
  obtain ⟨_, _, rfl⟩ := List.mem_map.1 hr
  obtain ⟨_, _, rfl⟩ := List.mem_map.1 hr'
  rfl

/-- Sequences that are alike have the same results. -/
theorem results_eq (h : Alike I s t) : s.results I = t.results I := h.sorted.data_eq

/-- What an operator makes of sequences that are alike is alike. -/
theorem evaluate? [DecidableEq V] (h : Alike I s t) {op : Operator}
    (hs : op.evaluate? I s = some s') : ∃ t', op.evaluate? I t = some t' ∧ Alike I s' t' := by
  -- whether an operator makes anything of a sequence depends on its data alone
  have hguard : ∀ (p : Datum V → Bool) {u u' : Sequence V}, Alike I u u' →
      (if s.all fun r => p r.1 then some u else none) = some s' →
        ∃ t', (if t.all fun r => p r.1 then some u' else none) = some t' ∧ Alike I s' t' := by
    intro p u u' hu hs
    rw [h.all_eq p] at hs
    split at hs
    · rename_i ht
      cases hs
      exact ⟨u', if_pos ht, hu⟩
    · cases hs
  cases op with
  | filter f => exact hguard (fun d => (f.meaning I d).isValue) (h.restrict _) hs
  | select f => exact hguard (fun d => (f.meaning I d).isComplete) (h.select _) hs
  | orderBy f descending => exact hguard (fun d => (f.meaning I d).isValue) (h.orderBy _ _) hs
  | thenBy f descending => exact hguard (fun d => (f.meaning I d).isValue) (h.thenBy _ _) hs
  | skip rows =>
    rw [Operator.evaluate?] at hs ⊢
    split at hs
    · cases hs
      exact ⟨_, rfl, h.sorted.drop _⟩
    · cases hs
  | take rows =>
    rw [Operator.evaluate?] at hs ⊢
    split at hs
    · cases hs
      exact ⟨_, rfl, h.sorted.take _⟩
    · cases hs
  | distinct =>
    cases hs
    exact ⟨_, rfl, h.makeDistinct⟩
  | _ => cases hs

end Alike

end Sequence

end QueryPipeline
