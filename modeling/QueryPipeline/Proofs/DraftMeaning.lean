import QueryPipeline.Proofs.Readings
import QueryPipeline.Proofs.Sequences
import QueryPipeline.Proofs.Steps

/-!
# What drafts mean

A draft stands for a sequence: the rows that it keeps, read through the shaper and with the keys they are
ordered by, without repetitions where the draft asks for it, and limited. Making the draft the source of a
new one does not change this sequence, and the rows of the finished select are its results.
-/

set_option autoImplicit false

namespace QueryPipeline

open Sql

section Meaning

variable {V : Type} [DecidableEq V] (I : Interpretation V) (db : Database V)

namespace Sql.Draft

/-- The columns of the rows that the predicate of a draft keeps. -/
def kept (d : Draft) : List (Bindings V) :=
  (sourceRows I db d.tables I.noBindings).filter fun ρ => (evalOption I db d.predicate ρ).all I.holds

/-- The number of rows at the front that a draft leaves out. -/
def offsetCount (d : Draft) : Option Nat := (evalOption I db d.offset I.noBindings).map I.count

/-- The number of rows that a draft keeps of the others. -/
def limitCount (d : Draft) : Option Nat := (evalOption I db d.limit I.noBindings).map I.count

/-- The rows of a select over a draft are those that the draft keeps: sorted, cut out into columns, without
repetitions if this is asked for, and limited. -/
theorem rows_toSelect (d : Draft) (columns : List OutputColumn) (slots : List (MemberPath × Slot))
    (orderings : List SortKey) :
    (d.toSelect columns slots orderings).rows I db I.noBindings =
      window (d.offsetCount I db) (d.limitCount I db)
        (if d.distinct
          then ((I.sortOn (evalKeys I db orderings) (d.kept I db)).map (evalColumns I db columns)).eraseDups
          else (I.sortOn (evalKeys I db orderings) (d.kept I db)).map (evalColumns I db columns)) := rfl

/-- A draft is limited where it has an offset or a limit. -/
theorem isLimited_eq (d : Draft) :
    ((d.offsetCount I db).isSome || (d.limitCount I db).isSome) = d.isLimited := by
  simp [offsetCount, limitCount, evalOption_eq, isLimited, Bool.or_comm]

end Sql.Draft

namespace ShapedDraft

/-- What a shaped draft reads from the columns of a row. -/
def read (q : ShapedDraft) (ρ : Bindings V) : Datum V :=
  q.shaper.meaning I (fun _ => .missing) (q.draft.shape.datumAt I db ρ)

/-- The rows that a draft keeps, read and with their keys. -/
def elements (q : ShapedDraft) : Sequence V :=
  (q.draft.kept I db).map fun ρ => (q.read I db ρ, evalKeys I db q.draft.orderings ρ)

/-- The sequence that a shaped draft stands for. -/
def sequence (q : ShapedDraft) : Sequence V :=
  Sequence.limitedBy I (q.draft.offsetCount I db) (q.draft.limitCount I db)
    (if q.draft.distinct then (q.elements I db).makeDistinct else q.elements I db)

/-- A draft without repetitions has no orderings. -/
def Settled (q : ShapedDraft) : Prop := q.draft.distinct = true → q.draft.orderings = []

end ShapedDraft

end Meaning

variable {V : Type} [DecidableEq V] {I : Interpretation V} {db : Database V}

/-- Scalars with the same values give a path the same datum. -/
theorem Sql.Projected.Related.datum_eq {R : Scalar → Scalar → Prop} {ρ ρ' : Bindings V}
    (hR : ∀ s s', R s s' → s'.eval I db ρ' = s.eval I db ρ) {p p' : Projected} (h : p.Related R p') :
    p'.datum I db ρ' = p.datum I db ρ := by
  cases h with
  | scalar h => simp only [Projected.datum, hR _ _ h]
  | @entity _ columns columns' h =>
    have hcolumns : columns'.map (fun c => (c.1, Datum.value (c.2.eval I db ρ'))) =
        columns.map fun c => (c.1, Datum.value (c.2.eval I db ρ)) := by
      induction h with
      | nil => rfl
      | cons h _ ih => rw [List.map_cons, List.map_cons, ih, h.1, hR _ _ h.2]
    simp only [Projected.datum, hcolumns]

/-- Shapes whose scalars have the same values have the same datum at every path. -/
theorem Sql.Shape.Related.datumAt_eq {R : Scalar → Scalar → Prop} {ρ ρ' : Bindings V}
    (hR : ∀ s s', R s s' → s'.eval I db ρ' = s.eval I db ρ) {shape shape' : Shape}
    (h : shape.Related R shape') : shape'.datumAt I db ρ' = shape.datumAt I db ρ := by
  funext path
  have hlookup := lookup_related h path
  unfold Shape.datumAt
  revert hlookup
  generalize shape.lookup path = p
  generalize shape'.lookup path = p'
  rintro (hp | _)
  · exact hp.datum_eq hR
  · rfl

/-- A position of a row that holds a scalar has its value. -/
theorem Sql.HoldsAt.ofRow_eq {columns : List OutputColumn} {position : Nat} {s : Scalar}
    (h : HoldsAt columns position s) (ρ : Bindings V) :
    Datum.ofRow (evalColumns I db columns ρ) position = .value (s.eval I db ρ) := by
  obtain ⟨c, hc, hexpr⟩ := h
  simp [Datum.ofRow, Sql.evalColumns_eq, hc, hexpr]

/-- A slot leads to the datum of what a path leads to. -/
theorem Sql.Slot.Holds.datum_eq {columns : List OutputColumn} {projected : Projected} {slot : Slot}
    (h : Slot.Holds columns projected slot) (ρ : Bindings V) :
    slot.datum (evalColumns I db columns ρ) = projected.datum I db ρ := by
  cases h with
  | scalar h => exact h.ofRow_eq ρ
  | @entity e positions h =>
    have hcolumns : positions.map (fun p => (p.1, Datum.ofRow (evalColumns I db columns ρ) p.2)) =
        e.columns.map fun c => (c.1, Datum.value (c.2.eval I db ρ)) := by
      generalize e.columns = members at h ⊢
      induction h with
      | nil => rfl
      | cons h _ ih => rw [List.map_cons, List.map_cons, ih, h.1, h.2.ofRow_eq ρ]
    simp only [Slot.datum, Projected.datum, hcolumns]

/-- A row of a select holds at every path what the shape has there. -/
theorem Sql.Select.datumAt_eq {s : Select} {shape : Shape} (h : SlotsHold s.projection shape s.slots)
    (ρ : Bindings V) :
    s.datumAt (evalColumns I db s.projection ρ) = shape.datumAt I db ρ := by
  funext path
  have hlookup := lookup_related h path
  unfold Select.datumAt Select.slot? Shape.datumAt
  revert hlookup
  generalize shape.lookup path = p
  generalize s.slots.lookup path = slot
  rintro (hp | _)
  · exact hp.datum_eq ρ
  · rfl

/-- Columns that all have names have just these names. -/
theorem Sql.map_aliasName {columns : List OutputColumn} (h : ∀ c ∈ columns, c.aliasName.isSome) :
    columns.map (·.aliasName) = (columns.filterMap (·.aliasName)).map some := by
  induction columns with
  | nil => rfl
  | cons c rest ih =>
    obtain ⟨hc, hrest⟩ := List.forall_mem_cons.1 h
    obtain ⟨name, hname⟩ := Option.isSome_iff_exists.1 hc
    simp [hname, ih hrest]

/-- Columns that are scalars of a shape have the same values where the scalars have. -/
theorem Sql.evalColumns_eq_of_scalars {columns : List OutputColumn} {shape : Shape}
    (hcolumns : ∀ c ∈ columns, ∃ s ∈ shape.scalars, c.expr = s.asValueForm) {ρ ρ' : Bindings V}
    (h : ∀ s ∈ shape.scalars, s.eval I db ρ = s.eval I db ρ') :
    evalColumns I db columns ρ = evalColumns I db columns ρ' := by
  rw [evalColumns_eq, evalColumns_eq]
  refine List.map_congr_left fun c hc => ?_
  obtain ⟨s, hs, hexpr⟩ := hcolumns c hc
  simpa [hexpr] using h s hs

/-- Repetitions may be left out before rows are read or afterwards, when what is read tells the scalars of the
shape apart. -/
theorem Sql.map_eraseDups_evalColumns {columns : List OutputColumn} {shape : Shape} {β : Type} [BEq β]
    [LawfulBEq β] (hcolumns : ∀ c ∈ columns, ∃ s ∈ shape.scalars, c.expr = s.asValueForm)
    {r : List V → β} {f : Bindings V → β} (hr : ∀ ρ, r (evalColumns I db columns ρ) = f ρ)
    (hf : ∀ ρ ρ', f ρ = f ρ' → ∀ s ∈ shape.scalars, s.eval I db ρ = s.eval I db ρ')
    (l : List (Bindings V)) :
    (l.map (evalColumns I db columns)).eraseDups.map r = (l.map f).eraseDups := by
  have hmap : l.map f = (l.map (evalColumns I db columns)).map r := by
    rw [List.map_map]
    exact List.map_congr_left fun ρ _ => (hr ρ).symm
  rw [hmap]
  refine (map_eraseDups fun row hrow row' hrow' heq => ?_).symm
  obtain ⟨ρ, -, rfl⟩ := List.mem_map.1 hrow
  obtain ⟨ρ', -, rfl⟩ := List.mem_map.1 hrow'
  rw [hr, hr] at heq
  exact evalColumns_eq_of_scalars hcolumns (hf ρ ρ' heq)

namespace Sql.Draft

variable {d : Draft}

/-- The columns of the subquery that a draft becomes, over a row of it. -/
def rowBindings (I : Interpretation V) (d : Draft) (row : List V) : Bindings V :=
  Interpretation.bindRow subqueryAlias (I.valueAt d.subquery.columnNames row) I.noBindings

/-- A draft that has been pushed down keeps the rows of its subquery. -/
theorem kept_pushDown (d : Draft) :
    d.pushDown.kept I db = (d.subquery.rows I db I.noBindings).map (d.rowBindings I) := by
  show ((d.subquery.rows I db I.noBindings).flatMap fun row => [d.rowBindings I row]).filter
    (fun _ => true) = _
  simp [List.map_eq_flatMap]

/-- A column of a subquery has the value of the scalar that it stands for. -/
theorem eval_outerColumn {s s' : Scalar} (h : OuterColumn d.subqueryProjection.columns s s')
    (ρ : Bindings V) :
    s'.eval I db (d.rowBindings I (evalColumns I db d.subqueryProjection.columns ρ)) =
      s.eval I db ρ := by
  obtain ⟨c, hc, name, hname, hexpr, rfl⟩ := h
  obtain ⟨hall, hnodup⟩ := d.subqueryProjection_wellNamed
  have hnames := map_aliasName hall
  have hfound : ((d.subquery.columnNames.zip
      (evalColumns I db d.subqueryProjection.columns ρ)).lookup (some name)) =
        some (c.expr.eval I db ρ) := by
    rw [evalColumns_eq, show d.subquery.columnNames = d.subqueryProjection.columns.map (·.aliasName)
      from rfl, List.zip_map']
    refine lookup_of_mem ?_ (List.mem_map.2 ⟨c, hc, by rw [hname]⟩)
    rw [List.map_map]
    exact hnames ▸ hnodup.map fun _ _ => Option.some.inj
  simp [Scalar.column, Node.eval, rowBindings, Interpretation.bindRow, Interpretation.valueAt, hfound,
    hexpr]

/-- The keys of a draft that has been pushed down have the values that they had before. -/
theorem evalKeys_outerOrderings (d : Draft) (ρ : Bindings V) :
    evalKeys I db d.outerOrderings
        (d.rowBindings I (evalColumns I db d.subqueryProjection.columns ρ)) =
      evalKeys I db d.orderings ρ := by
  have h := d.outerOrderings_related
  rw [evalKeys_eq, evalKeys_eq]
  generalize d.outerOrderings = orderings' at h ⊢
  generalize d.orderings = orderings at h ⊢
  induction h with
  | nil => rfl
  | cons hk _ ih => rw [List.map_cons, List.map_cons, ih, eval_outerColumn hk.1, hk.2]

end Sql.Draft

namespace ShapedDraft

variable {entity : EntityType} {q : ShapedDraft}

/-- A draft that has been pushed down reads from a row of its subquery what it read before. -/
theorem read_pushDown (q : ShapedDraft) (ρ : Bindings V) :
    q.pushDown.read I db
        (q.draft.rowBindings I (evalColumns I db q.draft.subqueryProjection.columns ρ)) =
      q.read I db ρ := by
  show q.shaper.meaning I _ (q.draft.outerShape.datumAt I db _) = _
  rw [q.draft.outerShape_related.datumAt_eq fun _ _ h => Draft.eval_outerColumn h ρ]
  rfl

/-- Rows that are read alike agree in the scalars of the shape. -/
theorem Agrees.eval_eq (h : q.Agrees entity) {ρ ρ' : Bindings V}
    (heq : q.read I db ρ = q.read I db ρ') :
    ∀ s ∈ q.draft.shape.scalars, s.eval I db ρ = s.eval I db ρ' :=
  h.fits.eval_eq (fun _ hp => h.found hp) heq

/-- The rows of a select over the draft without repetitions are read as the rows that it keeps are, without
repetitions. -/
theorem Agrees.map_eraseDups (h : q.Agrees entity) {columns : List OutputColumn}
    (hcolumns : ∀ c ∈ columns, ∃ s ∈ q.draft.shape.scalars, c.expr = s.asValueForm)
    {r : List V → Datum V} (hr : ∀ ρ, r (evalColumns I db columns ρ) = q.read I db ρ)
    (l : List (Bindings V)) :
    (l.map (evalColumns I db columns)).eraseDups.map r = (l.map (q.read I db)).eraseDups :=
  Sql.map_eraseDups_evalColumns hcolumns hr (fun _ _ => h.eval_eq) l

/-- Elements without repetitions have no keys, so they are sorted. -/
theorem sorted_makeDistinct (s : Sequence V) : s.makeDistinct.sorted I = s.makeDistinct :=
  Sequence.sorted_of_nil (by simp [Sequence.makeDistinct])

/-- Without repetitions, the elements of a query are the different ones that are read of its rows. -/
theorem makeDistinct_elements (q : ShapedDraft) :
    (q.elements I db).makeDistinct =
      (((q.draft.kept I db).map (q.read I db)).eraseDups.map fun d => (d, [])) := by
  simp only [Sequence.makeDistinct, elements, List.map_map]
  rfl

/-- Without orderings rows keep their order. -/
theorem sortOn_evalKeys_nil (l : List (Bindings V)) :
    I.sortOn (evalKeys I db []) l = l := I.sortOn_of_nil fun _ _ => rfl

/-- The elements of a draft in the order of their keys. -/
theorem sorted_elements (q : ShapedDraft) :
    (q.elements I db).sorted I = (I.sortOn (evalKeys I db q.draft.orderings) (q.draft.kept I db)).map
      fun ρ => (q.read I db ρ, evalKeys I db q.draft.orderings ρ) := I.map_sortOn _ _

/-- A draft that is pushed down stands for the same sequence as before. -/
theorem sequence_pushDown (h : q.Agrees entity) (hsettled : q.Settled) :
    q.pushDown.sequence I db = q.sequence I db := by
  have hpushed : q.pushDown.sequence I db = (q.draft.subquery.rows I db I.noBindings).map fun row =>
      (q.pushDown.read I db (q.draft.rowBindings I row),
        evalKeys I db q.draft.outerOrderings (q.draft.rowBindings I row)) := by
    show q.pushDown.elements I db = _
    rw [elements, show q.pushDown.draft.kept I db = _ from q.draft.kept_pushDown, List.map_map]
    rfl
  rw [hpushed, sequence, Sequence.limitedBy_eq, Draft.isLimited_eq, Draft.subquery, Draft.rows_toSelect,
    ← map_window]
  congr 1
  cases hdistinct : q.draft.distinct with
  | false =>
    simp only [Bool.false_eq_true, if_false, List.map_map]
    have hrow : ∀ ρ, (q.pushDown.read I db (q.draft.rowBindings I
          (evalColumns I db q.draft.subqueryProjection.columns ρ)),
        evalKeys I db q.draft.outerOrderings (q.draft.rowBindings I
          (evalColumns I db q.draft.subqueryProjection.columns ρ))) =
        (q.read I db ρ, evalKeys I db q.draft.orderings ρ) := fun ρ => by
      rw [read_pushDown, Draft.evalKeys_outerOrderings]
    -- a subquery puts its rows in order only if it has limits, just as the sequence is sorted only then
    split
    · rw [sorted_elements]
      exact List.map_congr_left fun ρ _ => hrow ρ
    · rw [sortOn_evalKeys_nil]
      exact List.map_congr_left fun ρ _ => hrow ρ
  | true =>
    -- the select compares rows of columns and the sequence data, but both tell the same rows apart
    have hnone := hsettled hdistinct
    have houter : q.draft.outerOrderings = [] := by simp [Draft.outerOrderings, hnone]
    have hcolumns : ∀ c ∈ q.draft.subqueryProjection.columns,
        ∃ s ∈ q.draft.shape.scalars, c.expr = s.asValueForm := by
      intro c hc
      have horigin := q.draft.subqueryProjection_grows.origin c hc
      simpa [hnone] using horigin
    have hread : ((q.draft.kept I db).map (evalColumns I db q.draft.subqueryProjection.columns)).eraseDups.map
        (fun row => q.pushDown.read I db (q.draft.rowBindings I row)) =
          ((q.draft.kept I db).map (q.read I db)).eraseDups :=
      h.map_eraseDups hcolumns q.read_pushDown _
    simp only [if_true, hnone, ite_self, sortOn_evalKeys_nil, sorted_makeDistinct, houter]
    rw [makeDistinct_elements, ← hread, List.map_map]
    rfl

/-- A row of the finished select is read as the draft reads the columns it comes from. -/
theorem datum_finish (q : ShapedDraft) (ρ : Bindings V) :
    q.finish.datum I (evalColumns I db q.draft.rowProjection.columns ρ) = q.read I db ρ := by
  show q.shaper.meaning I _ (q.draft.finish.datumAt (evalColumns I db q.draft.finish.projection ρ)) = _
  rw [Select.datumAt_eq q.draft.rowSlots_hold]
  rfl

/-- The rows of the finished select, read through the shaper, are the results of the sequence that the
draft stands for. -/
theorem results_finish (h : q.Agrees entity) (hsettled : q.Settled) :
    (q.finish.select.rows I db I.noBindings).map (q.finish.datum I) = (q.sequence I db).results I := by
  show (q.draft.finish.rows I db I.noBindings).map _ = _
  rw [Sequence.results, sequence, Sequence.sorted_limitedBy, Draft.finish_eq, Draft.rows_toSelect,
    ← map_window, ← map_window]
  congr 1
  cases hdistinct : q.draft.distinct with
  | false =>
    simp only [Bool.false_eq_true, if_false, sorted_elements, List.map_map]
    exact List.map_congr_left fun ρ _ => q.datum_finish ρ
  | true =>
    have hcolumns : ∀ c ∈ q.draft.rowProjection.columns,
        ∃ s ∈ q.draft.shape.scalars, c.expr = s.asValueForm := by
      intro c hc
      simpa using q.draft.rowProjection_grows.origin c hc
    have hread : ((q.draft.kept I db).map (evalColumns I db q.draft.rowProjection.columns)).eraseDups.map
        (q.finish.datum I) = ((q.draft.kept I db).map (q.read I db)).eraseDups :=
      h.map_eraseDups hcolumns q.datum_finish _
    simp only [if_true, hsettled hdistinct, sortOn_evalKeys_nil, sorted_makeDistinct]
    rw [hread, makeDistinct_elements, List.map_map]
    exact (List.map_id _).symm

end ShapedDraft

end QueryPipeline
