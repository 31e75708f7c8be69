import Mathlib.Data.List.Nodup
import QueryPipeline.Proofs.Nesting

/-!
# No key is repeated

Rows are never ordered twice by the same key. An ordering that is added is compared with those before, and a draft
that is pushed down gets a column for every key. Equal scalars share a column there, once they stand where values
are expected, but keys stand there already; so different keys get different columns, and these have different
names.
-/

set_option autoImplicit false

namespace QueryPipeline

open Sql

namespace Sql

/-- No two keys of a select are the same. -/
def Select.KeysDiffer (s : Select) : Prop := (s.orderings.map (·.expr)).Nodup

/-- Rows are ordered by different keys, each of which stands where a value is expected. -/
structure Draft.OrdersOnce (d : Draft) : Prop where
  values : ∀ k ∈ d.orderings, k.expr.asValueForm = k.expr
  keys : (d.orderings.map (·.expr)).Nodup

/-- Different columns of a subquery are different outside. -/
theorem OuterColumn.asValueForm_eq {d : Draft} {s t s' : Scalar}
    (hs : OuterColumn d.subqueryProjection.columns s s') (ht : OuterColumn d.subqueryProjection.columns t s') :
    s.asValueForm = t.asValueForm := by
  obtain ⟨c, hc, name, hname, hexpr, rfl⟩ := hs
  obtain ⟨c', hc', name', hname', hexpr', heq⟩ := ht
  have hnames : name = name' := (Node.column.inj (congrArg Scalar.node heq)).2
  obtain ⟨hall, hnodup⟩ := d.subqueryProjection_wellNamed
  have hdiffer : (d.subqueryProjection.columns.map (·.aliasName)).Nodup := by
    rw [map_aliasName hall]
    exact hnodup.map fun _ _ => Option.some.inj
  have hcolumns : c = c' := by
    apply List.inj_on_of_nodup_map hdiffer hc hc'
    rw [hname, hname', hnames]
  rw [← hexpr, ← hexpr', hcolumns]

namespace Draft.OrdersOnce

variable {d d' : Draft} {k : SortKey}

/-- A draft with the same keys is ordered by each of them once, too. -/
theorem ofKeys (h : d.OrdersOnce) (hkeys : d'.orderings.map (·.expr) = d.orderings.map (·.expr)) :
    d'.OrdersOnce := by
  refine ⟨fun k hk => ?_, hkeys ▸ h.keys⟩
  have hmem : k.expr ∈ d.orderings.map (·.expr) := hkeys ▸ List.mem_map_of_mem hk
  obtain ⟨k', hk', he⟩ := List.mem_map.1 hmem
  rw [← he]
  exact h.values k' hk'

/-- A draft without orderings is ordered by no key twice. -/
theorem ofNil (h : d.orderings = []) : d.OrdersOnce := by
  constructor <;> simp [h]

/-- A draft that is pushed down is ordered by each key once when it was before. -/
theorem pushDown (h : d.OrdersOnce) : d.pushDown.OrdersOnce := by
  obtain ⟨hvalues, hkeys⟩ := h
  have hrelated := d.outerOrderings_related
  rw [pushDown_eq]
  constructor
  · intro k' hk'
    obtain ⟨k, -, ⟨c, -, name, -, -, he⟩, -⟩ := exists_of_mem_right hrelated hk'
    rw [he]
    rfl
  · show (d.outerOrderings.map (·.expr)).Nodup
    generalize d.outerOrderings = orderings' at hrelated ⊢
    generalize d.orderings = orderings at hrelated hvalues hkeys
    induction hrelated with
    | nil => exact List.nodup_nil
    | @cons k k' rest rest' hk hrest ih =>
      rw [List.map_cons, List.nodup_cons] at hkeys ⊢
      obtain ⟨hvalue, hvalues⟩ := List.forall_mem_cons.1 hvalues
      refine ⟨fun hmem => hkeys.1 ?_, ih hvalues hkeys.2⟩
      -- a later key with the same column is the same key, because both are values already
      obtain ⟨l', hl', he⟩ := List.mem_map.1 hmem
      obtain ⟨l, hl, hcolumn, -⟩ := exists_of_mem_right hrest hl'
      have hsame := hk.1.asValueForm_eq (he ▸ hcolumn)
      rw [hvalue, hvalues l hl] at hsame
      rw [hsame]
      exact List.mem_map_of_mem hl

/-- A draft that is ordered by one key is ordered by it once. -/
theorem orderBy (hk : k.expr.asValueForm = k.expr) : (d.orderBy k).OrdersOnce :=
  ⟨List.forall_mem_singleton.2 hk, List.nodup_singleton _⟩

/-- To order by a further key repeats none. -/
theorem thenBy (h : d.OrdersOnce) (hk : k.expr.asValueForm = k.expr) : (d.thenBy k).OrdersOnce := by
  unfold Draft.thenBy
  split
  · exact h
  · rename_i hnew
    refine ⟨List.forall_mem_append.2 ⟨h.values, List.forall_mem_singleton.2 hk⟩, ?_⟩
    rw [List.map_append, List.map_singleton, List.nodup_append]
    refine ⟨h.keys, List.nodup_singleton _, ?_⟩
    intro e he e' he' heq
    obtain ⟨l, hl, rfl⟩ := List.mem_map.1 he
    apply hnew
    exact List.any_eq_true.2 ⟨l, hl, by simpa [heq] using he'⟩

/-- To turn all orderings around repeats no key. -/
theorem reverse (h : d.OrdersOnce) : d.reverse.OrdersOnce := by
  apply h.ofKeys
  rw [Draft.reverse, List.map_map]
  rfl

/-- The keys of a subquery differ. -/
theorem subquery (h : d.OrdersOnce) : d.subquery.KeysDiffer := by
  show ((if d.isLimited then d.orderings else []).map (·.expr)).Nodup
  split
  · exact h.keys
  · exact List.nodup_nil

/-- The keys of the select that a question is about differ. -/
theorem asked (h : d.OrdersOnce) : d.asked.finish.KeysDiffer := by
  unfold Draft.asked
  split
  · exact h.keys
  · exact List.nodup_nil

end Draft.OrdersOnce

end Sql

namespace Environment

variable {env : Environment} {q q' : ShapedDraft}

/-- A key stands where a value is expected. -/
theorem asValueForm_of_value {scope : Scope} {e : Expr} {s : Scalar} (h : scope.value e = .ok (some s)) :
    s.asValueForm = s := by
  obtain ⟨s', -, rfl⟩ := Scope.lowerIn_eq_some h
  rfl

/-- No step of an operator repeats a key. -/
theorem Step.ordersOnce {A : Expr → Prop} (h : q.draft.OrdersOnce) (hstep : env.Step A q q') :
    q'.draft.OrdersOnce := by
  cases hstep with
  | pushDown _ => exact h.pushDown
  | restrict _ _ _ | exclude _ _ _ => exact h.ofKeys (by rw [ShapedDraft.mapDraft, Draft.orderings_restrict])
  | orderBy _ _ _ hs => exact .orderBy (asValueForm_of_value hs)
  | thenBy _ _ _ hs => exact h.thenBy (asValueForm_of_value hs)
  | makeDistinct _ | unordered _ | existence _ => exact .ofNil rfl
  | reverse _ => exact h.reverse
  | project _ _ _ | skip _ _ _ | take _ _ _ | takeOne _ | rowTotal _ _ _ | aggregate _ _ _ _
  | ensureNonEmpty _ | expecting _ => exact h.ofKeys rfl

/-- Operators keep to selects whose keys differ when the functions do. -/
theorem nests_keysDiffer (hf : env.functions.Keep env.catalog (Scalar.AsksOnly Select.KeysDiffer)) :
    env.Nests (fun _ => True) (·.draft.OrdersOnce) (Scalar.AsksOnly Select.KeysDiffer) Select.KeysDiffer :=
  .ofQuestions hf (fun _ => .ofNil rfl) (fun h hstep => hstep.ordersOnce h) (·.subquery) (·.asked)

end Environment

/-- Keys of orderings stay different. In every state that operators bring a pipeline into step by step, no two keys
are the same, and when the draft is pushed down then, it is ordered by a column for each key, in the same
direction and place, and these columns differ too. No two keys are the same in any select of the statement, at
any depth, if functions do not bring in other selects. -/
theorem keys_never_repeated (env : Environment) (query : Query) :
    (∀ start q, env.start query.source = .ok start → env.Steps (fun _ => True) start q →
      (q.draft.orderings.map (·.expr)).Nodup ∧
      (q.draft.pushDown.orderings.map (·.expr)).Nodup ∧
      List.Forall₂ (fun k k' => OuterColumn q.draft.subqueryProjection.columns k.expr k'.expr ∧
        k'.ascending = k.ascending) q.draft.orderings q.draft.pushDown.orderings) ∧
    (env.functions.Keep env.catalog (Scalar.AsksOnly Select.KeysDiffer) →
      ∀ shaped, env.lower query = .ok shaped → ∀ s : Select, s.Within shaped.select → s.KeysDiffer) := by
  constructor
  · intro start q hstart hsteps
    obtain ⟨entity, -, rfl⟩ := Environment.start_eq_ok hstart
    have horders : q.draft.OrdersOnce :=
      hsteps.preserve (I := (·.draft.OrdersOnce)) (fun _ _ h hstep => hstep.ordersOnce h) (.ofNil rfl)
    exact ⟨horders.keys, horders.pushDown.keys, q.draft.outerOrderings_related⟩
  · intro hf shaped h s hs
    have hnests := Environment.nests_keysDiffer hf
    obtain ⟨q, horders, hcarries, rfl⟩ := hnests.lower h fun _ _ => trivial
    rcases Select.within_iff.1 hs with rfl | hs
    · exact horders.keys
    · exact hcarries.finish hnests s hs

/-- The first three persons by name and number, ordered by their names once more. -/
def Query.namedTwice : Query :=
  ⟨"Person",
    [.orderBy ⟨"p", .access (.param "p") "name"⟩ false,
      .thenBy ⟨"p", .access (.param "p") "id"⟩ true,
      .thenBy ⟨"p", .access (.param "p") "name"⟩ true,
      .take (.constant (.integer 3)),
      .thenBy ⟨"p", .access (.param "p") "name"⟩ true]⟩

/-- Persons are queried with a function added. -/
def Environment.soundsLike : Environment :=
  ((Compiler.new .persons .standard).withFunction CustomFunction.soundsLike.provider).environment

/-- The names are a key only once, inside of the source and outside, and would be if the draft went inside too. -/
theorem namedTwice_keys_differ :
    ∃ start q, Environment.soundsLike.start "Person" = .ok start ∧
      Environment.soundsLike.Steps (fun _ => True) start q ∧
      q.draft.orderings.length = 2 ∧ (q.draft.orderings.map (·.expr)).Nodup ∧
      (q.draft.pushDown.orderings.map (·.expr)).Nodup ∧
      Environment.soundsLike.lower .namedTwice = .ok q.finish ∧ q.finish.select.KeysDiffer ∧
      ∃ inner ∈ q.finish.select.sources, inner.orderings.length = 2 ∧ inner.KeysDiffer := by
  obtain ⟨shaped, h, hcheck⟩ : ∃ shaped, Environment.soundsLike.lower .namedTwice = .ok shaped ∧
      (shaped.select.orderings.length == 2 &&
        shaped.select.sources.any fun inner => inner.orderings.length == 2) = true :=
    exists_of_any (by decide +kernel)
  obtain ⟨q, hq, rfl⟩ := Environment.lower_eq_ok.1 h
  obtain ⟨start, hstart, hq⟩ := bind_eq_ok.1 hq
  have hsteps : Environment.soundsLike.Steps (fun _ => True) start q :=
    Environment.applyAll_steps hq fun _ _ => trivial
  obtain ⟨hstates, hselects⟩ := keys_never_repeated Environment.soundsLike .namedTwice
  obtain ⟨hkeys, hpushed, -⟩ := hstates start q hstart hsteps
  have hdiffer := hselects (Compiler.soundsLike_keep ((asksOnly_onReferences Select.KeysDiffer).closed _)) _ h
  obtain ⟨hlength, hinner⟩ := Bool.and_eq_true_iff.1 hcheck
  obtain ⟨inner, hinner, hlength'⟩ := List.any_eq_true.1 hinner
  exact ⟨start, q, hstart, hsteps, beq_iff_eq.1 hlength, hkeys, hpushed, h, hdiffer _ .refl, inner, hinner,
    beq_iff_eq.1 hlength', hdiffer inner (Select.within_iff.2 (.inr (.ofSource hinner .refl)))⟩

end QueryPipeline
