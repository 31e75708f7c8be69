import QueryPipeline.Proofs.AddedColumns

/-!
# Where a row of a finished select holds its shape

A finished select projects every scalar of its shape as a value, and equal ones only once. The positions that it
gives to the shape are those of the columns for its scalars: two scalars have one position exactly when they are
equal as values, every column is the column of some scalar, and read in the order of the shape the positions come
up for the first time as 0, 1, 2 and so on.
-/

set_option autoImplicit false

namespace QueryPipeline.Sql

/-- The positions at which a row of a select holds the scalars of its shape, in order. -/
def Select.positions (s : Select) : List Nat := slotPositions s.slots

/-- A row of a select holds a shape. -/
structure Select.HoldsShape (s : Select) (shape : Shape) : Prop where
  /-- The slots have the paths of the shape and the properties of its entities, in their order. -/
  slots : SlotsHold s.projection shape s.slots
  /-- At the position of a scalar stands the column for it. -/
  held : List.Forall₂ (fun scalar position => HoldsAt s.projection position scalar) shape.scalars s.positions
  distinct : (s.projection.map (·.expr)).Nodup
  shared : ∀ p ∈ shape.scalars.zip s.positions, ∀ q ∈ shape.scalars.zip s.positions,
    p.2 = q.2 ↔ p.1.asValueForm = q.1.asValueForm
  referenced (position : Nat) : position ∈ s.positions ↔ position < s.projection.length
  /-- Positions are numbered in the order in which they occur first. -/
  numbered : s.positions.eraseDups = List.range s.projection.length

/-- In columns for different scalars, two scalars are held at one position when they are equal as values. -/
theorem HoldsAt.position_eq_iff {columns : List OutputColumn} (hdistinct : (columns.map (·.expr)).Nodup)
    {n m : Nat} {s t : Scalar} (hs : HoldsAt columns n s) (ht : HoldsAt columns m t) :
    n = m ↔ s.asValueForm = t.asValueForm := by
  obtain ⟨c, hc, hs⟩ := hs
  obtain ⟨c', hc', ht⟩ := ht
  constructor
  · rintro rfl
    obtain rfl : c = c' := Option.some.inj (hc.symm.trans hc')
    exact hs.symm.trans ht
  · intro h
    have hlt : n < (columns.map (·.expr)).length := by
      rw [List.length_map]
      exact (List.getElem?_eq_some_iff.1 hc).1
    apply (List.getElem?_inj hlt hdistinct).1
    rw [List.getElem?_map, List.getElem?_map, hc, hc', Option.map_some, Option.map_some, hs, ht, h]

/-- Positions in a row repeat none. -/
theorem eraseDups_range (n : Nat) : (List.range n).eraseDups = List.range n := by
  induction n with
  | zero => rfl
  | succ n ih =>
    have hnew : [n].removeAll (List.range n) = [n] := by simp [List.removeAll]
    rw [List.range_succ, List.eraseDups_append, ih, hnew]
    rfl

namespace Projection

variable (p : Projection)

/-- A column more projects a scalar that was not projected before. -/
theorem add_distinct (h : (p.columns.map (·.expr)).Nodup) (s : Scalar) (preferred : String) :
    ((p.add s preferred).1.columns.map (·.expr)).Nodup := by
  rcases p.add_cases s preferred with ⟨position, -, hadd⟩ | ⟨hnew, hadd⟩
  · rw [hadd]
    exact h
  · rw [hadd, withColumn, List.map_append, List.nodup_append]
    refine ⟨h, by simp, ?_⟩
    rintro e he _ hlast rfl
    obtain ⟨c, hc, rfl⟩ := List.mem_map.1 he
    exact hnew c hc (List.mem_singleton.1 hlast)

/-- To add scalars to a projection gives no scalar two columns. -/
theorem addAll_distinct (h : (p.columns.map (·.expr)).Nodup) (requests : List (Scalar × String)) :
    ((p.addAll requests).1.columns.map (·.expr)).Nodup := by
  induction requests generalizing p with
  | nil => exact h
  | cons request rest ih => exact ih _ (p.add_distinct h request.1 request.2)

/-- The position of a scalar is one that there is already, or the next one. -/
theorem add_numbers (s : Scalar) (preferred : String) (positions : List Nat) :
    (List.range p.columns.length ++ (p.add s preferred).2 :: positions).eraseDups =
      (List.range (p.add s preferred).1.columns.length ++ positions).eraseDups := by
  rcases p.add_cases s preferred with ⟨position, hlt, hadd⟩ | ⟨-, hadd⟩
  · rw [hadd, List.eraseDups_append, List.eraseDups_append]
    simp [List.removeAll, hlt]
  · rw [hadd]
    simp [withColumn, List.range_succ]

/-- The positions of scalars that are added number the columns in the order in which they are added. -/
theorem addAll_numbers (requests : List (Scalar × String)) :
    (List.range p.columns.length ++ (p.addAll requests).2).eraseDups =
      List.range (p.addAll requests).1.columns.length := by
  induction requests generalizing p with
  | nil => simp [eraseDups_range]
  | cons request rest ih =>
    rw [addAll_cons, add_numbers]
    exact ih _

/-- A column more has no name in a projection that gives none. -/
theorem add_unnamed (hnamed : p.named = false) (h : ∀ c ∈ p.columns, c.aliasName = none) (s : Scalar)
    (preferred : String) : ∀ c ∈ (p.add s preferred).1.columns, c.aliasName = none := by
  rcases p.add_cases s preferred with ⟨position, -, hadd⟩ | ⟨-, hadd⟩
  · rw [hadd]
    exact h
  · rw [hadd]
    intro c hc
    rcases List.mem_append.1 hc with hc | hc
    · exact h c hc
    · simp [List.mem_singleton.1 hc, newName, hnamed]

/-- To add scalars to a projection without names gives none of them a name. -/
theorem addAll_unnamed (hnamed : p.named = false) (h : ∀ c ∈ p.columns, c.aliasName = none)
    (requests : List (Scalar × String)) : ∀ c ∈ (p.addAll requests).1.columns, c.aliasName = none := by
  induction requests generalizing p with
  | nil => exact h
  | cons request rest ih =>
    have hadd := (p.add_grows request.1 request.2).1
    exact ih _ (hadd.named.trans hnamed) (p.add_unnamed hnamed h request.1 request.2)

end Projection

/-- A finished draft gives positions to its shape, and leaves all else as it is. The slots of the select have the
paths of the shape in its order, and for entities their properties; at each position stands, without a name, the
scalar as a value. The columns project different scalars, and each is at the position of some scalar. Two scalars
have the same position exactly when they are equal as values, and the positions are numbered in the order of their
first occurrence. -/
theorem finish_holds_shape (d : Draft) :
    d.finish.HoldsShape d.shape ∧ (∀ c ∈ d.finish.projection, c.aliasName = none) ∧
      d.finish.tables = d.tables ∧ d.finish.predicate = d.predicate ∧ d.finish.orderings = d.orderings ∧
      d.finish.limit = d.limit ∧ d.finish.offset = d.offset ∧ d.finish.distinct = d.distinct := by
  have hcolumns : d.finish.projection = ((⟨false, []⟩ : Projection).addAll d.shape.requests).1.columns :=
    congrArg (fun r => r.1.columns) d.rowProjection_eq
  have hpositions : d.finish.positions = ((⟨false, []⟩ : Projection).addAll d.shape.requests).2 :=
    congrArg Prod.snd d.rowProjection_eq
  have hheld : List.Forall₂ (fun scalar position => HoldsAt d.finish.projection position scalar)
      d.shape.scalars d.finish.positions := by
    rw [hcolumns, hpositions, ← Shape.map_fst_requests, List.forall₂_map_left_iff]
    exact (Projection.addAll_grows _ _).2
  have hdistinct : (d.finish.projection.map (·.expr)).Nodup := by
    rw [hcolumns]
    exact Projection.addAll_distinct ⟨false, []⟩ List.nodup_nil d.shape.requests
  have hnumbered : d.finish.positions.eraseDups = List.range d.finish.projection.length := by
    rw [hcolumns, hpositions]
    exact Projection.addAll_numbers ⟨false, []⟩ d.shape.requests
  refine ⟨⟨d.rowSlots_hold, hheld, hdistinct, ?_, fun position => ?_, hnumbered⟩, ?_, rfl, rfl, rfl, rfl, rfl, rfl⟩
  · intro p hp q hq
    have hzip : ∀ p ∈ d.shape.scalars.zip d.finish.positions, HoldsAt d.finish.projection p.2 p.1 :=
      fun _ => (List.forall₂_iff_zip.1 hheld).2
    exact HoldsAt.position_eq_iff hdistinct (hzip p hp) (hzip q hq)
  · rw [← List.mem_eraseDups, hnumbered, List.mem_range]
  · rw [hcolumns]
    exact Projection.addAll_unnamed ⟨false, []⟩ rfl (List.forall_mem_nil _) d.shape.requests

end QueryPipeline.Sql
