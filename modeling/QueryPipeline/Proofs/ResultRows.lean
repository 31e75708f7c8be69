import QueryPipeline.Proofs.Subqueries

/-!
# The rows of a result

The rows of a query in their final order, as the columns that they are read from. They do not change when
the draft is pushed down, so every operator at the end of a pipeline finds them in the draft that it opens,
whatever the shaper is. A condition keeps their order, and the first row in the opposite order is a last
row.
-/

set_option autoImplicit false

namespace QueryPipeline

open Sql Std

/-- A list can be split in one way only into members without a property and then members with it. -/
theorem split_unique {α : Type} {p : α → Bool} {before after before' after' : List α}
    (h : before ++ after = before' ++ after') (hbefore : ∀ a ∈ before, p a = false)
    (hafter : ∀ a ∈ after, p a = true) (hbefore' : ∀ a ∈ before', p a = false)
    (hafter' : ∀ a ∈ after', p a = true) : before = before' ∧ after = after' := by
  have hfilter : ∀ {l l' : List α}, (∀ a ∈ l, p a = false) → (∀ a ∈ l', p a = true) →
      (l ++ l').filter p = l' ∧ (l ++ l').filter (fun a => !p a) = l := by
    intro l l' hl hl'
    have hnone : l.filter p = [] := List.filter_eq_nil_iff.2 fun a ha => by simp [hl a ha]
    have hall : l.filter (fun a => !p a) = l := List.filter_eq_self.2 fun a ha => by simp [hl a ha]
    have hnone' : l'.filter (fun a => !p a) = [] :=
      List.filter_eq_nil_iff.2 fun a ha => by simp [hl' a ha]
    simp [hnone, hall, hnone', List.filter_eq_self.2 hl']
  obtain ⟨hright, hleft⟩ := hfilter hbefore hafter
  rw [h] at hright hleft
  obtain ⟨hright', hleft'⟩ := hfilter hbefore' hafter'
  exact ⟨hleft.symm.trans hleft', hright.symm.trans hright'⟩

namespace Interpretation

variable {V α : Type} (I : Interpretation V) {key rev : α → List (KeyValue V)} {l : List α}

/-- Of any two rows one comes before the other by its keys, or they come together. -/
theorem isLE_total (a b : List (KeyValue V)) :
    ((I.compareKeys a b).isLE || (I.compareKeys b a).isLE) = true := by
  have hswap : I.compareKeys b a = (I.compareKeys a b).swap := OrientedCmp.eq_swap
  rw [hswap]
  cases I.compareKeys a b <;> rfl

/-- Rows that are sorted by keys stand in the order of these. -/
theorem pairwise_sortOn (key : α → List (KeyValue V)) (l : List α) :
    (I.sortOn key l).Pairwise fun a b => (I.compareKeys (key a) (key b)).isLE :=
  List.pairwise_mergeSort (fun _ _ _ => TransCmp.isLE_trans) (fun _ _ => I.isLE_total _ _) l

/-- A member at the front of a list goes in front of those that are not before it. -/
theorem sortOn_cons (key : α → List (KeyValue V)) (a : α) (l : List α) :
    ∃ before after, I.sortOn key (a :: l) = before ++ a :: after ∧ I.sortOn key l = before ++ after ∧
      (∀ b ∈ before, (I.compareKeys (key a) (key b)).isLE = false) ∧
      ∀ b ∈ after, (I.compareKeys (key a) (key b)).isLE = true := by
  let le a b := (I.compareKeys (key a) (key b)).isLE
  have htrans : ∀ a b c, le a b → le b c → le a c := fun _ _ _ => TransCmp.isLE_trans
  have htotal : ∀ a b, le a b || le b a := fun _ _ => I.isLE_total _ _
  obtain ⟨before, after, hcons, hrest, hbefore⟩ := List.mergeSort_cons htrans htotal a l
  have hsorted := I.pairwise_sortOn key (a :: l)
  rw [show I.sortOn key (a :: l) = _ from hcons] at hsorted
  refine ⟨before, after, hcons, hrest, fun b hb => ?_, ?_⟩
  · simpa [le] using hbefore b hb
  · exact (List.pairwise_cons.1 (List.pairwise_append.1 hsorted).2.1).1

/-- Members that are left out do not change the order of the others. -/
theorem sortOn_filter (key : α → List (KeyValue V)) (p : α → Bool) (l : List α) :
    I.sortOn key (l.filter p) = (I.sortOn key l).filter p := by
  induction l with
  | nil => simp [sortOn]
  | cons a rest ih =>
    obtain ⟨before, after, hcons, hrest, hbefore, hafter⟩ := I.sortOn_cons key a rest
    rw [hrest] at ih
    cases hp : p a with
    | false =>
      rw [List.filter_cons_of_neg (by simp [hp]), ih, hcons, List.filter_append, List.filter_append,
        List.filter_cons_of_neg (by simp [hp])]
    | true =>
      -- both lists are split at the members that do not come before `a`
      obtain ⟨before', after', hcons', hrest', hbefore', hafter'⟩ := I.sortOn_cons key a (rest.filter p)
      rw [ih, List.filter_append] at hrest'
      obtain ⟨rfl, rfl⟩ := split_unique hrest' (fun b hb => hbefore b (List.mem_filter.1 hb).1)
        (fun b hb => hafter b (List.mem_filter.1 hb).1) hbefore' hafter'
      rw [List.filter_cons_of_pos hp, hcons', hcons, List.filter_append, List.filter_cons_of_pos hp]

/-- The first member in the opposite order is one that no other member comes after, and the last member when
no two members are equal in their keys. -/
theorem last_of_head_reverse
    (hrev : ∀ a b, I.compareKeys (rev a) (rev b) = I.compareKeys (key b) (key a)) {a : α}
    (h : (I.sortOn rev l).head? = some a) :
    a ∈ I.sortOn key l ∧ (∀ b ∈ I.sortOn key l, I.compareKeys (key a) (key b) ≠ .lt) ∧
      ((I.sortOn key l).Pairwise (fun b c => I.compareKeys (key b) (key c) ≠ .eq) →
        (I.sortOn key l).getLast? = some a) := by
  obtain ⟨rest, hrest⟩ := List.head?_eq_some_iff.1 h
  have hmem : ∀ b, b ∈ I.sortOn key l ↔ b ∈ I.sortOn rev l := fun b => by rw [mem_sortOn, mem_sortOn]
  have hsorted := I.pairwise_sortOn rev l
  rw [hrest] at hsorted
  have hmax : ∀ b ∈ I.sortOn key l, I.compareKeys (key a) (key b) ≠ .lt := by
    intro b hb hlt
    rw [hmem, hrest] at hb
    have hswap : I.compareKeys (key b) (key a) = .gt := OrientedCmp.gt_iff_lt.2 hlt
    rcases List.mem_cons.1 hb with rfl | hb
    · rw [hlt] at hswap
      cases hswap
    · have hle := (List.pairwise_cons.1 hsorted).1 b hb
      rw [hrev, hswap] at hle
      cases hle
  have ha : a ∈ I.sortOn key l := (hmem a).2 (hrest ▸ List.mem_cons_self)
  refine ⟨ha, hmax, fun hdifferent => ?_⟩
  obtain ⟨before, after, hsplit⟩ := List.append_of_mem ha
  cases after with
  | nil => simp [hsplit]
  | cons b after =>
    -- a member after `a` would be equal to it in the keys
    have hb : b ∈ a :: b :: after := by simp
    have hle := I.pairwise_sortOn key l
    rw [hsplit] at hle hdifferent
    have hle := (List.pairwise_cons.1 (List.pairwise_append.1 hle).2.1).1 b List.mem_cons_self
    have hne := (List.pairwise_cons.1 (List.pairwise_append.1 hdifferent).2.1).1 b List.mem_cons_self
    have hlt := hmax b (by rw [hsplit]; exact List.mem_append_right _ hb)
    cases hcompare : I.compareKeys (key a) (key b) with
    | lt => exact absurd hcompare hlt
    | eq => exact absurd hcompare hne
    | gt =>
      rw [hcompare] at hle
      cases hle

end Interpretation

namespace Sql

namespace Draft

variable {V : Type} [DecidableEq V] {I : Interpretation V} {db : Database V} {d : Draft}

/-- A draft in the opposite order has its keys in the opposite order. -/
theorem compareKeys_reverse (d : Draft) (ρ ρ' : Bindings V) :
    I.compareKeys (evalKeys I db d.reverse.orderings ρ) (evalKeys I db d.reverse.orderings ρ') =
      I.compareKeys (evalKeys I db d.orderings ρ') (evalKeys I db d.orderings ρ) := by
  show I.compareKeys (evalKeys I db (d.orderings.map fun k => { k with ascending := !k.ascending }) ρ)
    (evalKeys I db (d.orderings.map fun k => { k with ascending := !k.ascending }) ρ') = _
  induction d.orderings with
  | nil => rfl
  | cons k rest ih =>
    obtain ⟨s, ascending⟩ := k
    simp only [List.map_cons, evalKeys, Interpretation.compareKeys, List.compareLex_cons_cons] at ih ⊢
    rw [ih]
    cases ascending <;> rfl

/-- Whether a select over a draft has rows does not depend on what it projects or how it is ordered. -/
theorem rows_toSelect_eq_nil (hoffset : d.distinct = true → d.offset = none)
    (columns : List OutputColumn) (slots : List (MemberPath × Slot)) (orderings : List SortKey) :
    (d.toSelect columns slots orderings).rows I db I.noBindings = [] ↔
      window (d.offsetCount I db) (d.limitCount I db) (d.kept I db) = [] := by
  have hlength : (I.sortOn (evalKeys I db orderings) (d.kept I db)).length = (d.kept I db).length :=
    (List.mergeSort_perm _ _).length_eq
  rw [rows_toSelect]
  cases hdistinct : d.distinct with
  | false =>
    rw [if_neg Bool.false_ne_true, map_window, List.map_eq_nil_iff]
    unfold window
    split <;> simp [List.take_eq_nil_iff, hlength]
  | true =>
    -- repetitions that are left out leave a row, and then no row at the front is left out
    have hnone : d.offsetCount I db = none := by rw [offsetCount, hoffset hdistinct]; rfl
    have herase : ∀ l : List (List V), l.eraseDups = [] ↔ l = [] := fun l => by
      cases l with
      | nil => simp
      | cons a rest => simp [List.eraseDups_cons]
    have hnil : I.sortOn (evalKeys I db orderings) (d.kept I db) = [] ↔ d.kept I db = [] := by
      rw [← List.length_eq_zero_iff, hlength, List.length_eq_zero_iff]
    rw [if_pos rfl, hnone]
    unfold window
    split <;> simp [List.take_eq_nil_iff, herase, hnil]

end Draft

end Sql

namespace ShapedDraft

variable {V : Type} [DecidableEq V] (I : Interpretation V) (db : Database V)

/-- The data that the rows of the finished select are read as. -/
def rowsRead (q : ShapedDraft) : List (Datum V) :=
  (q.finish.select.rows I db I.noBindings).map (q.finish.datum I)

/-- The rows of a query in their final order, as the columns of the draft that sees all of them. -/
def places (q : ShapedDraft) : List (Bindings V) :=
  I.sortOn (evalKeys I db q.opened.draft.orderings) (q.opened.draft.kept I db)

/-- The rows of a query in their final order, read and with their keys. -/
def ranked (q : ShapedDraft) : Sequence V :=
  (q.places I db).map fun ρ => (q.opened.read I db ρ, evalKeys I db q.opened.draft.orderings ρ)

/-- What the shaper puts together from what the paths of a row lead to. -/
def assembled {V : Type} (I : Interpretation V) (q : ShapedDraft) (readings : List (MemberPath × Datum V)) :
    Datum V :=
  q.shaper.meaning I (fun _ => .missing) fun path => (readings.lookup path).getD .missing

variable {I db} {q : ShapedDraft}

/-- A draft that sees all its rows is read row by row. -/
theorem rowsRead_of_open (h : q.isClosed = false) :
    q.rowsRead I db =
      (I.sortOn (evalKeys I db q.draft.orderings) (q.draft.kept I db)).map (q.read I db) := by
  obtain ⟨hlimit, hoffset, hdistinct⟩ := isClosed_eq_false.1 h
  show (q.draft.finish.rows I db I.noBindings).map _ = _
  rw [Draft.finish_eq, Draft.rows_toSelect, Draft.limitCount, Draft.offsetCount, hlimit, hoffset, hdistinct,
    if_neg Bool.false_ne_true]
  show ((I.sortOn (evalKeys I db q.draft.orderings) (q.draft.kept I db)).map _).map _ = _
  rw [List.map_map]
  exact List.map_congr_left fun ρ _ => q.datum_finish ρ

omit [DecidableEq V] in
/-- A row of the finished select is put together from what its paths lead to. -/
theorem datum_finish_eq (q : ShapedDraft) (row : List V) :
    q.finish.datum I row = q.assembled I (q.draft.finish.readings row) := by
  refine congrArg (q.shaper.meaning I _) (funext fun path => ?_)
  show q.draft.finish.datumAt row path = _
  unfold Select.datumAt Select.slot? Select.readings
  rw [lookup_map_snd fun slot : Slot => slot.datum row]
  cases q.draft.finish.slots.lookup path <;> rfl

/-- The rows that are read are those of the result, assembled. -/
theorem rowsRead_eq_resultRows (q : ShapedDraft) :
    q.rowsRead I db = (q.draft.resultRows I db).map (q.assembled I) := by
  rw [rowsRead, Draft.resultRows, List.map_map]
  exact List.map_congr_left fun row _ => q.datum_finish_eq row

/-- A draft that is pushed down is read as before. -/
theorem rowsRead_pushDown (hsettled : q.Settled) : q.pushDown.rowsRead I db = q.rowsRead I db := by
  have hrows : q.pushDown.draft.resultRows I db = q.draft.resultRows I db :=
    (Draft.pushDown_returnsAs hsettled).rows
  rw [rowsRead_eq_resultRows, rowsRead_eq_resultRows, hrows]
  rfl

/-- A query that is pushed down on a condition reads the same rows in the same order. -/
theorem rowsRead_pushDownIf (hsettled : q.Settled) (condition : Bool) :
    (q.pushDownIf condition).rowsRead I db = q.rowsRead I db := by
  unfold pushDownIf
  split
  · exact rowsRead_pushDown hsettled
  · rfl

/-- The finished select is read in the final order of the rows. -/
theorem rowsRead_eq (hsettled : q.Settled) :
    q.rowsRead I db = (q.places I db).map (q.opened.read I db) := by
  rw [← rowsRead_pushDownIf hsettled q.isClosed]
  exact rowsRead_of_open q.opened_isClosed

/-- The rows that are read are those that the operators are about, in their order. -/
theorem rowsRead_eq_ranked (hsettled : q.Settled) : q.rowsRead I db = (q.ranked I db).map (·.1) := by
  rw [rowsRead_eq hsettled, ranked, List.map_map]
  rfl

/-- A draft that would be pushed down to be opened may be pushed down before. -/
theorem ranked_pushDownIf {condition : Bool} (h : condition = true → q.isClosed = true) :
    (q.pushDownIf condition).ranked I db = q.ranked I db := by
  have hopened : (q.pushDownIf condition).opened = q.opened := by
    cases condition with
    | false => rfl
    | true =>
      rw [opened, opened, h rfl]
      rfl
  rw [ranked, ranked, places, places, hopened]

/-- A limit in place of none keeps so many rows at the front. -/
theorem rowsRead_take (hlimit : q.draft.limit = none) (count : Scalar) :
    (q.mapDraft (·.take count)).rowsRead I db =
      (q.rowsRead I db).take (I.count (count.eval I db I.noBindings)) := by
  show ((q.draft.take count).finish.rows I db I.noBindings).map (q.finish.datum I) =
    ((q.draft.finish.rows I db I.noBindings).map (q.finish.datum I)).take _
  have hnone : q.draft.limitCount I db = none := by rw [Draft.limitCount, hlimit]; rfl
  have hsome : (q.draft.take count).limitCount I db = some (I.count (count.eval I db I.noBindings)) := rfl
  rw [Draft.finish_eq, Draft.finish_eq, Draft.rows_toSelect, Draft.rows_toSelect, hnone, hsome,
    ← List.map_take]
  rfl

end ShapedDraft

end QueryPipeline
