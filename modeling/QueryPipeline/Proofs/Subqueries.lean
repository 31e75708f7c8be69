import Mathlib.Logic.Function.Iterate
import QueryPipeline.Proofs.Translation

/-!
# Drafts as sources

A draft that becomes the source of a new one returns the same rows as before. `Draft.keyedRows` are the rows of a
draft in their order, read path by path and next to what they are ordered by, and `Draft.resultRows` are the rows
of the finished select, read through its slots. Neither changes when the draft is pushed down, whatever its shape
and sources are, as long as it is not both ordered and without repetitions.
-/

set_option autoImplicit false

namespace QueryPipeline

open Sql

instance {V : Type} [DecidableEq V] : DecidableEq (KeyValue V) := fun ⟨a, up⟩ ⟨b, up'⟩ =>
  decidable_of_iff (a = b ∧ up = up') (by simp)

namespace Sql

section Meaning

variable {V : Type} [DecidableEq V] (I : Interpretation V) (db : Database V)

/-- What the paths of a select lead to in a row. -/
def Select.readings (s : Select) (row : List V) : List (MemberPath × Datum V) :=
  s.slots.map fun p => (p.1, p.2.datum row)

namespace Draft

/-- What the paths of a draft lead to, over the columns of a row. -/
def readings (d : Draft) (ρ : Bindings V) : List (MemberPath × Datum V) :=
  d.shape.map fun p => (p.1, p.2.datum I db ρ)

/-- A row of a draft next to what it is ordered by. -/
def keyed (d : Draft) (ρ : Bindings V) : List (MemberPath × Datum V) × List (KeyValue V) :=
  (d.readings I db ρ, evalKeys I db d.orderings ρ)

/-- The rows that a draft returns, in their order and next to what they are ordered by. -/
def keyedRows (d : Draft) : List (List (MemberPath × Datum V) × List (KeyValue V)) :=
  let rows := I.sortOn (·.2) ((d.kept I db).map (d.keyed I db))
  window (d.offsetCount I db) (d.limitCount I db) (if d.distinct then rows.eraseDups else rows)

/-- The rows of the finished select. -/
def resultRows (d : Draft) : List (List (MemberPath × Datum V)) :=
  (d.finish.rows I db I.noBindings).map d.finish.readings

/-- Rows are ordered only where repeated ones may stay. -/
def Settled (d : Draft) : Prop := d.distinct = true → d.orderings = []

/-- A draft returns the rows of another one in the same order, and orders them by the same values in the same
directions. -/
structure ReturnsAs (d' d : Draft) : Prop where
  rows : d'.resultRows I db = d.resultRows I db
  keys : d'.keyedRows I db = d.keyedRows I db
  directions : d'.orderings.map (·.ascending) = d.orderings.map (·.ascending)

/-- Nothing but the sources, the shape and the orderings of a draft is set. -/
structure ReadsAll (d : Draft) : Prop where
  predicate : d.predicate = none
  limit : d.limit = none
  offset : d.offset = none
  distinct : d.distinct = false

end Draft

end Meaning

variable {V : Type} [DecidableEq V] {I : Interpretation V} {db : Database V}

/-- Shapes with related scalars lead to the same data, path by path. -/
theorem Shape.Related.readings_eq {R : Scalar → Scalar → Prop} {ρ ρ' : Bindings V}
    (hR : ∀ s s', R s s' → s'.eval I db ρ' = s.eval I db ρ) {shape shape' : Shape}
    (h : shape.Related R shape') :
    (shape'.map fun p => (p.1, p.2.datum I db ρ')) = shape.map fun p => (p.1, p.2.datum I db ρ) := by
  unfold Shape.Related at h
  induction h with
  | nil => rfl
  | cons hp _ ih => rw [List.map_cons, List.map_cons, ih, hp.1, hp.2.datum_eq hR]

namespace Draft

variable {d : Draft}

/-- A row of a finished draft is read as the columns that it comes from. -/
theorem readings_finish (d : Draft) (ρ : Bindings V) :
    d.finish.readings (evalColumns I db d.rowProjection.columns ρ) = d.readings I db ρ := by
  have hslots := d.rowSlots_hold
  show (d.rowSlots.map fun p => (p.1, p.2.datum (evalColumns I db d.rowProjection.columns ρ))) =
    d.shape.map fun p => (p.1, p.2.datum I db ρ)
  unfold SlotsHold at hslots
  generalize d.rowSlots = slots at hslots ⊢
  generalize d.shape = shape at hslots ⊢
  induction hslots with
  | nil => rfl
  | cons hp _ ih => rw [List.map_cons, List.map_cons, ih, hp.1, hp.2.datum_eq ρ]

/-- A row of the new draft is read, and ordered, as the columns that the old one has there. -/
theorem keyed_pushDown (d : Draft) (ρ : Bindings V) :
    d.pushDown.keyed I db (d.rowBindings I (evalColumns I db d.subqueryProjection.columns ρ)) =
      d.keyed I db ρ := by
  refine Prod.ext ?_ (d.evalKeys_outerOrderings ρ)
  exact d.outerShape_related.readings_eq fun _ _ h => eval_outerColumn h ρ

/-- Rows that are read alike agree in the scalars of the shape. -/
theorem eval_eq_of_readings {ρ ρ' : Bindings V} (h : d.readings I db ρ = d.readings I db ρ') :
    ∀ s ∈ d.shape.scalars, s.eval I db ρ = s.eval I db ρ' := by
  intro s hs
  obtain ⟨⟨path, projected⟩, hp, hs⟩ := List.mem_flatMap.1 hs
  have hdatum : projected.datum I db ρ = projected.datum I db ρ' :=
    congrArg Prod.snd (List.map_inj_left.1 h _ hp)
  cases projected with
  | scalar s' =>
    cases List.mem_singleton.1 hs
    exact Datum.value.inj hdatum
  | entity e =>
    obtain ⟨c, hc, rfl⟩ := List.mem_map.1 hs
    have hcolumn := List.map_inj_left.1 (Datum.record.inj hdatum) c hc
    exact Datum.value.inj (congrArg Prod.snd hcolumn)

/-- Without orderings, rows are next to no keys. -/
theorem keyed_of_unordered (h : d.orderings = []) (ρ : Bindings V) :
    d.keyed I db ρ = (d.readings I db ρ, []) := by rw [keyed, h]; rfl

/-- Rows next to their keys are sorted as rows are that are sorted by these keys. -/
theorem sortOn_keyed (d : Draft) (l : List (Bindings V)) :
    I.sortOn (·.2) (l.map (d.keyed I db)) =
      (I.sortOn (evalKeys I db d.orderings) l).map (d.keyed I db) :=
  I.map_sortOn (d.keyed I db) l

/-- Without orderings, rows next to their keys stay in their order. -/
theorem sortOn_keyed_of_unordered (h : d.orderings = []) (l : List (Bindings V)) :
    I.sortOn (·.2) (l.map (d.keyed I db)) = l.map (d.keyed I db) := by
  rw [sortOn_keyed, h, ShapedDraft.sortOn_evalKeys_nil]

/-- The finished select is read in the order of the keys. -/
theorem resultRows_eq (h : d.Settled) : d.resultRows I db = (d.keyedRows I db).map (·.1) := by
  rw [resultRows, keyedRows, finish_eq, rows_toSelect, ← map_window, ← map_window]
  congr 1
  cases hdistinct : d.distinct with
  | false =>
    simp only [Bool.false_eq_true, if_false, sortOn_keyed, List.map_map]
    exact List.map_congr_left fun ρ _ => d.readings_finish ρ
  | true =>
    have hnone := h hdistinct
    have hcolumns : ∀ c ∈ d.rowProjection.columns, ∃ s ∈ d.shape.scalars, c.expr = s.asValueForm := by
      intro c hc
      simpa using d.rowProjection_grows.origin c hc
    have hread := map_eraseDups_evalColumns (f := d.readings I db) hcolumns d.readings_finish
      (fun _ _ => eval_eq_of_readings) (d.kept I db)
    have hpairs : ∀ r ∈ (d.kept I db).map (d.keyed I db), ∀ r' ∈ (d.kept I db).map (d.keyed I db),
        r.1 = r'.1 → r = r' := by
      intro r hr r' hr' heq
      obtain ⟨ρ, -, rfl⟩ := List.mem_map.1 hr
      obtain ⟨ρ', -, rfl⟩ := List.mem_map.1 hr'
      rw [keyed_of_unordered hnone, keyed_of_unordered hnone] at heq ⊢
      exact congrArg (·, []) heq
    simp only [if_true]
    rw [sortOn_keyed_of_unordered hnone, ← map_eraseDups hpairs, List.map_map, hnone,
      ShapedDraft.sortOn_evalKeys_nil]
    exact hread

/-- A draft that is pushed down returns the same rows, ordered by the same values. -/
theorem keyedRows_pushDown (h : d.Settled) : d.pushDown.keyedRows I db = d.keyedRows I db := by
  have hrows : d.pushDown.keyedRows I db = I.sortOn (·.2) ((d.subquery.rows I db I.noBindings).map
      fun row => d.pushDown.keyed I db (d.rowBindings I row)) := by
    rw [keyedRows, kept_pushDown, List.map_map]
    rfl
  rw [hrows, keyedRows, subquery, rows_toSelect, ← map_window]
  cases hdistinct : d.distinct with
  | false =>
    have hkeyed : (fun row => d.pushDown.keyed I db (d.rowBindings I row)) ∘
        evalColumns I db d.subqueryProjection.columns = d.keyed I db := funext d.keyed_pushDown
    simp only [Bool.false_eq_true, if_false, List.map_map, hkeyed]
    -- a subquery orders its rows only where it limits them, and a window of ordered rows is ordered
    cases hlimited : d.isLimited with
    | true =>
      rw [if_pos rfl, ← sortOn_keyed]
      exact I.sortOn_of_sublist (window_sublist _ _ _)
    | false =>
      obtain ⟨hlimit, hoffset⟩ : d.limit = none ∧ d.offset = none := by
        simpa [isLimited] using hlimited
      rw [if_neg Bool.false_ne_true, ShapedDraft.sortOn_evalKeys_nil, limitCount, offsetCount, hlimit,
        hoffset]
      rfl
  | true =>
    have hnone := h hdistinct
    have hcolumns : ∀ c ∈ d.subqueryProjection.columns,
        ∃ s ∈ d.shape.scalars, c.expr = s.asValueForm := by
      intro c hc
      have horigin := d.subqueryProjection_grows.origin c hc
      simpa [hnone] using horigin
    have hread := map_eraseDups_evalColumns (f := d.keyed I db)
      (r := fun row => d.pushDown.keyed I db (d.rowBindings I row)) hcolumns d.keyed_pushDown
      (fun _ _ h => eval_eq_of_readings (congrArg Prod.fst h)) (d.kept I db)
    simp only [if_true]
    rw [hnone, ite_self, ShapedDraft.sortOn_evalKeys_nil, hread, sortOn_keyed_of_unordered hnone]
    -- rows without keys stay in their order
    refine I.sortOn_of_nil fun r hr => ?_
    obtain ⟨ρ, -, rfl⟩ := List.mem_map.1 (List.mem_eraseDups.1 ((window_sublist _ _ _).subset hr))
    rw [keyed_of_unordered hnone]

/-- A draft with nothing but sources, shape and orderings is settled. -/
theorem ReadsAll.settled (h : d.ReadsAll) : d.Settled := fun hdistinct =>
  absurd (h.distinct.symm.trans hdistinct) Bool.false_ne_true

/-- A draft that is pushed down has nothing but sources, shape and orderings. -/
theorem pushDown_readsAll (d : Draft) : d.pushDown.ReadsAll := ⟨rfl, rfl, rfl, rfl⟩

/-- A draft that is pushed down is settled. -/
theorem pushDown_settled (d : Draft) : d.pushDown.Settled := d.pushDown_readsAll.settled

/-- A settled draft that is pushed down returns the same rows. -/
theorem pushDown_returnsAs (h : d.Settled) : d.pushDown.ReturnsAs I db d where
  rows := by rw [resultRows_eq d.pushDown_settled, resultRows_eq h, keyedRows_pushDown h]
  keys := keyedRows_pushDown h
  directions := by
    have hkeys := d.outerOrderings_related
    show d.outerOrderings.map (·.ascending) = d.orderings.map (·.ascending)
    generalize d.outerOrderings = orderings' at hkeys ⊢
    generalize d.orderings = orderings at hkeys ⊢
    induction hkeys with
    | nil => rfl
    | cons hk _ ih => rw [List.map_cons, List.map_cons, ih, hk.2]

/-- Drafts that return the same rows one as the other do so across a third one. -/
theorem ReturnsAs.trans {d' d'' : Draft} (h : d''.ReturnsAs I db d') (h' : d'.ReturnsAs I db d) :
    d''.ReturnsAs I db d :=
  ⟨h.rows.trans h'.rows, h.keys.trans h'.keys, h.directions.trans h'.directions⟩

/-- A settled draft stays settled however often it is pushed down. -/
theorem iterate_pushDown_settled (h : d.Settled) (times : Nat) : (pushDown^[times] d).Settled := by
  cases times with
  | zero => exact h
  | succ n =>
    rw [Function.iterate_succ_apply']
    exact pushDown_settled _

end Draft

end Sql

/-- A draft can be made the source of a new one any number of times. It returns the same rows in the same order,
read path by path and property by property, and orders them by the same values in the same directions; nothing
else is left to do outside. Numbers of rows do not depend on rows, so a column in one is absent before and
afterwards. -/
theorem pushed_down_returns_same_rows {V : Type} [DecidableEq V] (d : Draft) (h : d.Settled)
    (I : Interpretation V) (db : Database V) (times : Nat) :
    (Draft.pushDown^[times] d).ReturnsAs I db d ∧ (times ≠ 0 → (Draft.pushDown^[times] d).ReadsAll) := by
  induction times with
  | zero => exact ⟨⟨rfl, rfl, rfl⟩, fun h => absurd rfl h⟩
  | succ n ih =>
    rw [Function.iterate_succ_apply']
    have hlast : (Draft.pushDown^[n] d).pushDown.ReturnsAs I db (Draft.pushDown^[n] d) :=
      Draft.pushDown_returnsAs (Draft.iterate_pushDown_settled h n)
    exact ⟨hlast.trans ih.1, fun _ => Draft.pushDown_readsAll _⟩

/-- The second and third of the persons in the order of their names, whole and with the number after theirs. -/
def Sql.Draft.secondByName : Draft :=
  let number := Scalar.column "p" "id" .int32 none
  let name := Scalar.column "p" "name" (.optional .text) none
  let next := Scalar.binary .add number (.constant (.integer 1) .int32) .int32 none
  ((Draft.ofTable (.table "Person" none "p") ⟨"Person", [("id", number), ("name", name)]⟩).project
    [(MemberPath.root.append "who", .entity ⟨"Person", [("id", number), ("name", name)]⟩),
      (MemberPath.root.append "next", .scalar next)])
    |>.orderBy ⟨name, false⟩ |>.thenBy ⟨next, true⟩
    |>.skip (.constant (.integer 1) .int32) |>.take (.constant (.integer 2) .int32)

/-- The second persons by name stay the same when their draft is pushed down twice. -/
theorem secondByName_returns_same_rows :
    Draft.secondByName.Settled ∧
      (Draft.pushDown^[2] Draft.secondByName).ReturnsAs .numbers personRows Draft.secondByName ∧
        (Draft.pushDown^[2] Draft.secondByName).ReadsAll := by
  have hsettled : Draft.secondByName.Settled := fun h => absurd h (by decide +kernel)
  obtain ⟨hreturns, hreads⟩ := pushed_down_returns_same_rows Draft.secondByName hsettled .numbers personRows 2
  exact ⟨hsettled, hreturns, hreads (by decide)⟩

-- the first and the fourth person have the greatest name, and the third has the next one
example : (Draft.secondByName.keyedRows .numbers personRows).map (·.2) =
    [[⟨some 40, false⟩, ⟨some 5, true⟩], [⟨some 20, false⟩, ⟨some 4, true⟩]] := by
  cbv

end QueryPipeline
