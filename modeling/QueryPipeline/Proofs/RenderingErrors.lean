import QueryPipeline.Proofs.Mappings

/-!
# Writing statements without internal errors

A diagnostic of the sort `Bug` means that the compiler has broken a promise to itself. A writer only breaks
one when a constant or a cast has no mapping, so a statement whose constants and casts all have mappings is
written without such a diagnostic, in every dialect and at any depth.
-/

set_option autoImplicit false

namespace QueryPipeline

open Sql

/-- The diagnostic means a broken promise inside of the compiler. -/
def Diagnostic.IsBug (d : Diagnostic) : Prop := ∃ details, d.cause = .bug details

/-- Every failure of a computation satisfies a property. -/
def FailsOnly {ε α : Type} (P : ε → Prop) (x : Except ε α) : Prop := ∀ e, x = .error e → P e

namespace FailsOnly

variable {ε α β : Type} {P : ε → Prop}

/-- A result is no error. -/
theorem ok (a : α) : FailsOnly P (.ok a : Except ε α) := nofun

/-- An error with the property is one of those allowed. -/
theorem error {e : ε} (h : P e) : FailsOnly P (.error e : Except ε α) := by
  rintro _ ⟨⟩
  exact h

/-- A computation fails only with such errors when its first step does and so do the next ones from its result.
-/
theorem bind {x : Except ε α} {f : α → Except ε β} (hx : FailsOnly P x)
    (hf : ∀ a, x = .ok a → FailsOnly P (f a)) : FailsOnly P (x >>= f) := by
  intro e h
  rcases bind_eq_error.1 h with h | ⟨a, ha, h⟩
  · exact hx e h
  · exact hf a ha e h

/-- Two computations may come before the same continuation. -/
theorem ite_bind {c : Prop} [Decidable c] {x y : Except ε α} {f : α → Except ε β}
    (hx : FailsOnly P x) (hy : FailsOnly P y) (hf : ∀ a, FailsOnly P (f a)) :
    FailsOnly P (if c then x >>= f else y >>= f) := by
  split
  · exact hx.bind fun a _ => hf a
  · exact hy.bind fun a _ => hf a

end FailsOnly

/-- A computation does not fail with an internal error. -/
abbrev NoBug {α : Type} (x : Except Diagnostic α) : Prop := FailsOnly (fun d => ¬ d.IsBug) x

/-- A plain diagnostic is no internal error. -/
theorem not_isBug_simple (text : String) : ¬ (Diagnostic.simple text).IsBug := nofun

namespace Sql

section Rendering

variable {style : NameStyle}

/-- To write a literal never fails with an internal error. -/
theorem TypeMapping.write_noBug (m : TypeMapping) (value : Literal) : NoBug (m.write value) := by
  unfold TypeMapping.write
  split
  · exact .ok _
  · split
    · exact .ok _
    · exact .error (not_isBug_simple _)

/-- To write a truth value never fails with an internal error. -/
theorem boolLiteral_noBug (mapping : Option TypeMapping) (b : Bool) : NoBug (boolLiteral mapping b) := by
  cases mapping with
  | none => exact .ok _
  | some m => exact m.write_noBug _

/-- To write a constant never fails with an internal error when it is a null or has a mapping. -/
theorem constantText_noBug {mapping : Option TypeMapping} {value : Literal}
    (h : value.isNull = false → mapping.isSome) : NoBug (constantText mapping value) := by
  cases mapping with
  | some m => exact m.write_noBug _
  | none =>
    unfold constantText
    cases hnull : value.isNull with
    | true => exact .ok _
    | false => cases h hnull

/-- The sources of a mapped select are mapped. -/
theorem mapped_source {s inner : Select} {aliasName : String} (h : s.AllHold Scalar.AllMapped)
    (hinner : TableSource.subquery inner aliasName ∈ s.tables) : inner.AllHold Scalar.AllMapped :=
  fun i hi => h i (.source hinner hi)

/-- The scalars of a mapped select are settled. -/
theorem mapped_scalars {s : Select} (h : s.AllHold Scalar.AllMapped) :
    ∀ whole ∈ s.scalars, whole.Settled := by
  intro whole hwhole part hpart
  refine ⟨?_, fun inner negated hnode i hi => h i (.existence hwhole hpart hnode hi)⟩
  have hholds := h s .refl
  simp only [Select.scalars, List.mem_append, List.mem_map, Option.mem_toList] at hwhole
  rcases hwhole with (((⟨c, hc, rfl⟩ | hs) | ⟨k, hk, rfl⟩) | hs) | hs
  · exact hholds.projection c hc part hpart
  · exact hholds.predicate _ hs part hpart
  · exact hholds.orderings k hk part hpart
  · exact hholds.limit _ hs part hpart
  · exact hholds.offset _ hs part hpart

/-- The parts of a settled scalar that may be missing are complete. -/
theorem optionParts_complete {s : Option Scalar} (h : ∀ whole ∈ s.toList, whole.Settled) :
    ∀ part ∈ optionParts s, part.Complete := by
  intro part hpart
  obtain ⟨whole, hwhole, hpart⟩ := mem_optionParts.1 hpart
  exact h whole (by simpa using hwhole) part hpart

mutual

/-- A settled scalar is written without an internal error. -/
theorem Scalar.render_noBug : ∀ s : Scalar, s.Settled → NoBug (s.render style)
  | ⟨node, type, mapping, isCondition, asValue⟩ => fun h => by
    have hnode : NoBug (node.render style type mapping) :=
      Node.render_noBug type mapping node h.self.mapped.constant h.self.mapped.cast
        h.self.existence h.parts
    rw [Scalar.render]
    split
    · exact hnode
    · split
      · refine (boolLiteral_noBug _ _).bind fun _ _ => (boolLiteral_noBug _ _).bind fun _ _ => ?_
        exact hnode.bind fun _ _ => .ok _
      · split
        · exact hnode.bind fun _ _ => (boolLiteral_noBug _ _).bind fun _ _ => .ok _
        · exact hnode

/-- To write a node never fails with an internal error when what has to have a mapping has one. -/
theorem Node.render_noBug (type : DataType) (mapping : Option TypeMapping) :
    ∀ n : Node, (∀ value, n = .constant value → value.isNull = false → mapping.isSome) →
      (∀ operand, n = .cast operand → mapping.isSome) →
      (∀ inner negated, n = .existsIn inner negated → inner.AllHold Scalar.AllMapped) →
      (∀ part ∈ n.parts, part.Complete) → NoBug (n.render style type mapping)
  | .column _ _ | .parameter _ | .fragment _ => fun _ _ _ _ => .ok _
  | .constant value => fun hconstant _ _ _ =>
    (constantText_noBug (hconstant value rfl)).bind fun _ _ => .ok _
  | .binary op left right => fun _ _ _ h => by
    rw [Node.parts, List.forall_mem_append] at h
    have hl := Scalar.render_noBug left h.1
    have hr := Scalar.render_noBug right h.2
    rw [Node.render]
    split
    · exact hl.bind fun _ _ => hr.bind fun _ _ => .ok _
    · exact hl.bind fun _ _ => hr.bind fun _ _ => .ok _
  | .not operand | .negate operand | .isNull operand _ => fun _ _ _ h =>
    (Scalar.render_noBug operand h).bind fun _ _ => .ok _
  | .function _ _ receiver args => fun _ _ _ h => by
    rw [Node.parts, List.forall_mem_append] at h
    refine (renderOption_noBug _ receiver _ h.1).bind fun _ _ => ?_
    exact (renderArgs_noBug args h.2).bind fun _ _ => .ok _
  | .case branches otherwise => fun _ _ _ h => by
    rw [Node.parts, List.forall_mem_append] at h
    rw [Node.render]
    refine (renderBranches_noBug branches h.1).bind fun _ _ => ?_
    exact (renderOption_noBug _ otherwise _ h.2).bind fun _ _ => .ok _
  | .existsIn subquery negated => fun _ _ hexistence _ =>
    (Select.render_noBug subquery (hexistence _ _ rfl)).bind fun _ _ => .ok _
  | .like subject pattern escape => fun _ _ _ h => by
    rw [Node.parts, List.forall_mem_append, List.forall_mem_append] at h
    rw [Node.render]
    refine (Scalar.render_noBug subject h.1.1).bind fun _ _ => ?_
    refine (Scalar.render_noBug pattern h.1.2).bind fun _ _ => ?_
    exact (renderOption_noBug _ escape _ h.2).bind fun _ _ => .ok _
  | .cast operand => fun _ hcast _ h => by
    obtain ⟨m, rfl⟩ := Option.isSome_iff_exists.1 (hcast operand rfl)
    exact (Scalar.render_noBug operand h).bind fun _ _ => .ok _

/-- To write a scalar that may be missing never fails with an internal error when its parts are complete. -/
theorem renderOption_noBug (before : List Piece) :
    ∀ (s : Option Scalar) (after : List Piece), (∀ part ∈ optionParts s, part.Complete) →
      NoBug (renderOption style before s after)
  | none, _ => fun _ => .ok _
  | some s, _ => fun h => (Scalar.render_noBug s h).bind fun _ _ => .ok _

/-- To write arguments never fails with an internal error when their parts are complete. -/
theorem renderArgs_noBug :
    ∀ args : List Scalar, (∀ part ∈ listParts args, part.Complete) → NoBug (renderArgs style args)
  | [] => fun _ => .ok _
  | [s] => fun h => by
    rw [listParts, List.forall_mem_append] at h
    exact Scalar.render_noBug s h.1
  | s :: next :: rest => fun h => by
    rw [listParts, List.forall_mem_append] at h
    rw [renderArgs]
    · exact (Scalar.render_noBug s h.1).bind fun _ _ =>
        (renderArgs_noBug (next :: rest) h.2).bind fun _ _ => .ok _
    · exact nofun

/-- To write the branches of a `CASE` never fails with an internal error when their parts are complete. -/
theorem renderBranches_noBug :
    ∀ branches : List CaseBranch, (∀ part ∈ branchParts branches, part.Complete) →
      NoBug (renderBranches style branches)
  | [] => fun _ => .ok _
  | ⟨test, result⟩ :: rest => fun h => by
    rw [branchParts, List.forall_mem_append, List.forall_mem_append] at h
    rw [renderBranches]
    refine (Scalar.render_noBug test h.1.1).bind fun _ _ => ?_
    refine (Scalar.render_noBug result h.1.2).bind fun _ _ => ?_
    exact (renderBranches_noBug rest h.2).bind fun _ _ => .ok _

/-- To write a select never fails with an internal error when all scalars in it have mappings. -/
theorem Select.render_noBug : ∀ s : Select, s.AllHold Scalar.AllMapped → NoBug (s.render style)
  | ⟨tables, projection, slots, predicate, orderings, limit, offset, distinct⟩ => fun h => by
    have hsettled := mapped_scalars h
    simp only [Select.scalars, List.forall_mem_append, List.forall_mem_map] at hsettled
    obtain ⟨⟨⟨⟨hprojection, hpredicate⟩, horderings⟩, hlimit⟩, hoffset⟩ := hsettled
    have htables := renderTables_noBug tables fun _ _ hinner => mapped_source h hinner
    have hcolumns := renderColumns_noBug projection hprojection
    have hcondition (before after : List Piece) :=
      renderOption_noBug before predicate after (optionParts_complete hpredicate)
    have hkeys := renderKeys_noBug orderings horderings
    have hmost (before after : List Piece) :=
      renderOption_noBug before limit after (optionParts_complete hlimit)
    have hskipped (before after : List Piece) :=
      renderOption_noBug before offset after (optionParts_complete hoffset)
    rw [Select.render]
    -- the limit is written in one of four places, by the pagination of the dialect
    refine .ite_bind (hmost _ _) (.ok _) fun _ => ?_
    refine hcolumns.bind fun _ _ => htables.bind fun _ _ => ?_
    refine (hcondition _ _).bind fun _ _ => hkeys.bind fun _ _ => ?_
    dsimp only
    split
    · exact (hmost _ _).bind fun _ _ => (hskipped _ _).bind fun _ _ => .ok _
    · split
      · exact (hskipped _ _).bind fun _ _ => (hmost _ _).bind fun _ _ => .ok _
      · exact .ite_bind (hmost _ _) (.ok _) fun _ => .ok _

/-- To write columns never fails with an internal error when they are settled. -/
theorem renderColumns_noBug :
    ∀ columns : List OutputColumn, (∀ c ∈ columns, c.expr.Settled) →
      NoBug (renderColumns style columns)
  | [] => fun _ => .ok _
  | [⟨s, _⟩] => fun h => (Scalar.render_noBug s (h _ List.mem_cons_self)).bind fun _ _ => .ok _
  | ⟨s, _⟩ :: next :: rest => fun h => by
    obtain ⟨hs, hrest⟩ := List.forall_mem_cons.1 h
    rw [renderColumns]
    · exact (Scalar.render_noBug s hs).bind fun _ _ =>
        (renderColumns_noBug (next :: rest) hrest).bind fun _ _ => .ok _
    · exact nofun

/-- To write tables never fails with an internal error when all scalars in the subqueries have mappings. -/
theorem renderTables_noBug :
    ∀ tables : List TableSource,
      (∀ inner aliasName, TableSource.subquery inner aliasName ∈ tables →
        inner.AllHold Scalar.AllMapped) → NoBug (renderTables style tables)
  | [] => fun _ => .ok _
  | .table _ _ _ :: rest => fun h =>
    (renderTables_noBug rest fun _ _ hi => h _ _ (List.mem_cons_of_mem _ hi)).bind fun _ _ => .ok _
  | .subquery select _ :: rest => fun h =>
    (Select.render_noBug select (h _ _ List.mem_cons_self)).bind fun _ _ =>
      (renderTables_noBug rest fun _ _ hi => h _ _ (List.mem_cons_of_mem _ hi)).bind fun _ _ => .ok _

/-- To write keys never fails with an internal error when they are settled. -/
theorem renderKeys_noBug :
    ∀ keys : List SortKey, (∀ k ∈ keys, k.expr.Settled) → NoBug (renderKeys style keys)
  | [] => fun _ => .ok _
  | ⟨s, _⟩ :: rest => fun h => by
    obtain ⟨hs, hrest⟩ := List.forall_mem_cons.1 h
    rw [renderKeys]
    exact (Scalar.render_noBug s hs).bind fun _ _ =>
      (renderKeys_noBug rest hrest).bind fun _ _ => .ok _

end

end Rendering

end Sql

end QueryPipeline
