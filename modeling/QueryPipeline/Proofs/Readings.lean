import QueryPipeline.Proofs.BodyMeaning
import QueryPipeline.Proofs.Closed

/-!
# What rows hold

The shape of a draft says which scalars a row holds, so over the columns of a row it gives every path a datum,
and the shaper puts these together. The scalar that a body becomes has the value that the body means, and the
shaper that a selector becomes means, over the new shape, what the selector means over the old one. What a
shaper means tells the scalars of its shape apart.
-/

set_option autoImplicit false

namespace QueryPipeline

open Sql

/-- In a list with other values under the same keys, a key finds the other value. -/
theorem lookup_map_snd {α β γ : Type} [BEq α] (f : β → γ) (l : List (α × β)) (a : α) :
    (l.map fun c => (c.1, f c.2)).lookup a = (l.lookup a).map f := by
  induction l with
  | nil => rfl
  | cons c rest ih =>
    rw [List.map_cons, List.lookup_cons, List.lookup_cons, ih]
    split <;> rfl

section Data

variable {V : Type} [DecidableEq V] (I : Interpretation V) (db : Database V) (ρ : Bindings V)

/-- The datum that a path leads to, over the columns of a row. -/
def Sql.Projected.datum : Projected → Datum V
  | .scalar s => .value (s.eval I db ρ)
  | .entity e => .record (e.columns.map fun c => (c.1, .value (c.2.eval I db ρ)))

/-- The datum at a path of a shape, over the columns of a row. -/
def Sql.Shape.datumAt (shape : Shape) (path : MemberPath) : Datum V :=
  match shape.lookup path with
  | some projected => projected.datum I db ρ
  | none => .missing

/-- The value at a position of a row. -/
def Datum.ofRow {V : Type} (row : List V) (position : Nat) : Datum V :=
  match row[position]? with
  | some v => .value v
  | none => .missing

/-- The datum that a slot leads to in a row. -/
def Sql.Slot.datum {V : Type} (row : List V) : Slot → Datum V
  | .scalar position => .ofRow row position
  | .entity positions => .record (positions.map fun p => (p.1, .ofRow row p.2))

/-- The datum that a row of a select holds at a path. -/
def Sql.Select.datumAt {V : Type} (s : Select) (row : List V) (path : MemberPath) : Datum V :=
  match s.slot? path with
  | some slot => slot.datum row
  | none => .missing

/-- The datum that a shaped query puts together from a row of its select. -/
def ShapedQuery.datum {V : Type} (I : Interpretation V) (q : ShapedQuery) (row : List V) : Datum V :=
  q.shaper.meaning I (fun _ => .missing) (q.select.datumAt row)

end Data

/-- The form of what a shape has at a path. It is the same over all columns. -/
def Sql.Shape.formAt (shape : Shape) : MemberPath → Form :=
  shape.datumAt .trivial (fun _ _ => []) fun _ _ => ()

/-- Everywhere in an expression, members are taken of entities and shapes of a draft only. -/
def Expr.IsAdmittedOver (shape : Shape) (e : Expr) : Prop :=
  e.everywhere (Expr.isAdmitted (fun _ => .missing) shape.formAt) = true

/-- A plain body is one that a pipeline may contain. -/
theorem Expr.isPlainSource_of_isPlain {param : String → Form} {e : Expr} (h : e.isPlain param = true) :
    e.IsPlainSource := by
  obtain ⟨hdistinct, heverywhere⟩ := Bool.and_eq_true _ _ ▸ h
  refine ⟨?_, hdistinct⟩
  exact Expr.everywhere_imp (fun _ he => (Bool.and_eq_true _ _ ▸ Expr.everywhere_self he).1) heverywhere

/-- A plain body without parameters takes members of shapes only. -/
theorem Expr.isAdmittedOver_of_isPlain {e : Expr} (h : e.isPlain (fun _ => .missing) = true)
    (shape : Shape) : e.IsAdmittedOver shape := by
  refine Expr.everywhere_imp (fun e he => ?_) (Bool.and_eq_true _ _ ▸ h).2
  have hself := (Bool.and_eq_true _ _ ▸ Expr.everywhere_self he).2
  cases e with
  | member receiver name =>
    cases receiver with
    | none => exact hself
    | some receiver =>
      simp only [Expr.everywhere, everywhereReceiver, Bool.and_eq_true] at he
      have hsource : receiver.isSource = true :=
        Expr.everywhere_imp (fun _ he => (Bool.and_eq_true _ _ ▸ Expr.everywhere_self he).1) he.2
      rw [Expr.isAdmitted, receiver.meaning_of_source shape.formAt hsource] at hself
      exact hself
  | call _ _ _ => exact hself
  | convert _ _ => exact hself
  | _ => rfl

namespace Lowered

variable {scope : Scope} {e : Expr} {s : Scalar}

/-- The scalar that a body becomes has the value that the body means. -/
theorem meaning (h : Lowered scope e s) (hadmitted : e.IsAdmittedOver scope.draft.shape) {V : Type}
    [DecidableEq V] (I : Interpretation V) (db : Database V) (ρ : Bindings V) :
    e.meaning I (fun _ => .missing) (scope.draft.shape.datumAt I db ρ) = .value (s.eval I db ρ) := by
  unfold Expr.IsAdmittedOver at hadmitted
  induction h generalizing V with
  | constant value => rfl
  | null _ => rfl
  | parameter name type => rfl
  | staticMember _ => cases hadmitted
  | @property receiver name entity path s hr hproperty =>
    rw [Expr.meaning, ← receiver.meaning_reduceMembers, hr, Expr.meaning, Shape.datumAt]
    unfold Draft.property? Draft.projected? at hproperty
    split at hproperty
    · rename_i e he
      have hcolumn : e.columns.lookup name.name = some s := hproperty
      simp only [he, Projected.datum, Datum.member]
      rw [lookup_map_snd fun s : Scalar => Datum.value (s.eval I db ρ), hcolumn]
      rfl
    · cases hproperty
  | @shapeMember receiver name members m s hr hm _ ih =>
    simp only [Expr.everywhere, everywhereReceiver, Bool.and_eq_true] at hadmitted
    have hreduced := Expr.everywhere_reduceMembers hadmitted.2
    rw [hr, Expr.everywhere, Bool.and_eq_true] at hreduced
    rw [Expr.meaning, ← receiver.meaning_reduceMembers, hr, Expr.meaning, Datum.member,
      Expr.lookup_membersMeaning hm]
    exact ih (Expr.everywhere_findMember? hreduced.2 hm) I db ρ
  | @member receiver name value s hentity hshape _ _ ih =>
    -- the receiver becomes a scalar, so it has the form of a value and has no members
    simp only [Expr.everywhere, everywhereReceiver, Bool.and_eq_true] at hadmitted
    have hvalue := ih hadmitted.2 .trivial (fun _ _ => []) fun _ _ => ()
    exact absurd hvalue (of_decide_eq_true hadmitted.1)
  | @isNull op left right operand s hop hnull hoperand _ ih =>
    simp only [Expr.everywhere, Bool.and_eq_true] at hadmitted
    have hmeaning := ih (by rw [hoperand]; split <;> simp only [hadmitted]) I db ρ
    rw [Expr.meaning, if_pos ⟨hop, hnull⟩, Catalog.eval_isNull]
    rw [hoperand] at hmeaning
    split at hmeaning <;> simp_all [Datum.map]
  | binary hnull hop _ _ ihl ihr =>
    simp only [Expr.everywhere, Bool.and_eq_true] at hadmitted
    simp only [Expr.meaning, if_neg hnull, hop, ihl hadmitted.1.2, ihr hadmitted.2, Datum.map₂,
      Catalog.eval_binary]
  | not _ ih =>
    simp only [Expr.everywhere, Bool.and_eq_true] at hadmitted
    simp only [Expr.meaning, ih hadmitted.2, Datum.map, Catalog.eval_not]
  | negate _ ih =>
    simp only [Expr.everywhere, Bool.and_eq_true] at hadmitted
    simp only [Expr.meaning, ih hadmitted.2, Datum.map, Scalar.eval_negated]
  | staticCall _ _ _ _ => simp [Expr.everywhere, Expr.isAdmitted] at hadmitted
  | call _ _ _ _ _ _ => simp [Expr.everywhere, Expr.isAdmitted] at hadmitted
  | conditional _ _ _ iht ihl ihr =>
    simp only [Expr.everywhere, Bool.and_eq_true] at hadmitted
    simp only [Expr.meaning, iht hadmitted.1.1.2, ihl hadmitted.1.2, ihr hadmitted.2, Datum.map₃,
      Catalog.eval_case]
  | convert _ _ _ => simp [Expr.everywhere, Expr.isAdmitted] at hadmitted
  | binding h =>
    unfold Draft.scalar? Draft.projected? at h
    rw [Expr.meaning, Shape.datumAt]
    split at h
    · rename_i heq
      cases h
      rw [heq]
      rfl
    · cases h

end Lowered

/-- The shaper that a selector becomes means, over a shape that holds the new one, what the selector means
over the shape of the draft. -/
theorem Bound.meaning {scope : Scope} {e shaper : Expr} {path : MemberPath} {shape : Shape}
    (h : Bound scope e path shaper shape) (hadmitted : e.IsAdmittedOver scope.draft.shape)
    {whole : Shape} (hfound : ∀ p ∈ shape, whole.lookup p.1 = some p.2) {V : Type} [DecidableEq V]
    (I : Interpretation V) (db : Database V) (ρ : Bindings V) :
    shaper.meaning I (fun _ => .missing) (whole.datumAt I db ρ) =
      e.meaning I (fun _ => .missing) (scope.draft.shape.datumAt I db ρ) := by
  induction h with
  | @leaf e path s _ _ hvalue =>
    obtain ⟨s', hs', rfl⟩ := Scope.lowerIn_eq_some hvalue
    have hmeaning := hs'.meaning (Expr.everywhere_reduceMembers hadmitted) I db ρ
    rw [Expr.meaning_reduceMembers] at hmeaning
    rw [hmeaning, Expr.meaning, Shape.datumAt, hfound _ List.mem_cons_self]
    simp [Projected.datum]
  | @entity e entity source path columns he hcolumns =>
    have hsource : scope.draft.shape.lookup source = some (.entity columns) := hcolumns
    rw [← e.meaning_reduceMembers, he, Expr.meaning, Expr.meaning, Shape.datumAt, Shape.datumAt,
      hfound _ List.mem_cons_self, hsource]
  | @shapeNil e path he => rw [← e.meaning_reduceMembers, he, Expr.meaning, Expr.meaning]; rfl
  | @shapeCons e m bound path name rest others shape shapes he _ _ ihm ihrest =>
    have hmembers := Expr.everywhere_reduceMembers hadmitted
    simp only [he, Expr.everywhere, everywhereMembers, Bool.and_eq_true] at hmembers
    obtain ⟨hfirst, hothers⟩ := List.forall_mem_append.1 hfound
    have hrest := ihrest (by simp [Expr.IsAdmittedOver, Expr.everywhere, Expr.isAdmitted, hmembers.2.2])
      hothers
    rw [Expr.meaning, Expr.meaning, Datum.record.injEq] at hrest
    rw [← e.meaning_reduceMembers, he, Expr.meaning, Expr.meaning, membersMeaning, membersMeaning,
      ihm hmembers.2.1 hfirst, hrest]

namespace Lambda

variable {f : Lambda} {argument : Expr}

/-- An expression with an argument in it means what it means when the parameter stands for what the
argument means. -/
theorem meaning_substitute {e : Expr} (hsource : e.isSource = true) (hargument : argument.isNull = false)
    {V : Type} (I : Interpretation V) (leaf : MemberPath → Datum V) :
    (Expr.substitute f.param argument e).meaning I (fun _ => .missing) leaf =
      e.meaning I (f.bindParam (argument.meaning I (fun _ => .missing) leaf)) fun _ => .missing := by
  have hparam : (fun name => (if name = f.param then argument else .param name).meaning I
      (fun _ => .missing) leaf) = f.bindParam (argument.meaning I (fun _ => .missing) leaf) := by
    funext name
    unfold bindParam
    split <;> rfl
  rw [Expr.substitute, Expr.meaning_mapParams (fun name => ?_), hparam]
  · exact e.meaning_of_source _ hsource
  · split
    · exact hargument
    · rfl

/-- The body of a function with an argument in it means what the function makes of what the argument
means. -/
theorem meaning_inline (hsource : f.body.isSource = true) (hargument : argument.isNull = false)
    {V : Type} (I : Interpretation V) (leaf : MemberPath → Datum V) :
    (f.inline argument).meaning I (fun _ => .missing) leaf =
      f.meaning I (argument.meaning I (fun _ => .missing) leaf) :=
  meaning_substitute hsource hargument I leaf

/-- A function without calls and conversions that takes members of entities and shapes only still does with
an argument in it. -/
theorem isAdmittedOver_inline {shape : Shape} {form : Form} (hplain : f.isPlain form = true)
    (hargument : argument.isNull = false)
    (hform : argument.meaning .trivial (fun _ => .missing) shape.formAt = form)
    (hadmitted : argument.IsAdmittedOver shape) : (f.inline argument).IsAdmittedOver shape := by
  have hbody := (Bool.and_eq_true _ _ ▸ hplain).2
  refine Expr.everywhere_mapParams (fun e he hne => ?_) (fun name _ => ?_) f.body hbody
  · have hself := Expr.everywhere_self he
    rw [Bool.and_eq_true] at hself
    cases e with
    | param name => exact absurd rfl (hne name)
    | member receiver name =>
      cases receiver with
      | none => exact hself.2
      | some receiver =>
        simp only [Expr.everywhere, everywhereReceiver, Bool.and_eq_true] at he
        have hsource : receiver.isSource = true :=
          Expr.everywhere_imp (fun e he => (Bool.and_eq_true _ _ ▸ Expr.everywhere_self he).1) he.2
        have hmeaning := meaning_substitute (f := f) hsource hargument .trivial shape.formAt
        rw [hform] at hmeaning
        simp only [Expr.mapParams, Expr.mapParamsReceiver, Expr.isAdmitted]
        rw [Expr.isAdmitted, ← hmeaning] at hself
        exact hself.2
    | call _ _ _ => exact hself.2
    | convert _ _ => exact hself.2
    | _ => rfl
  · split
    · exact hadmitted
    · rfl

end Lambda

namespace Fits

variable {entity : EntityType} {e : Expr} {path : MemberPath} {shape whole : Shape}

/-- What an expression fits a shape with is no null. -/
theorem isNull (h : Fits entity e path shape) : e.isNull = false := by
  cases h <;> rfl

/-- A shaper takes no members and calls no functions. -/
theorem isAdmittedOver (h : Fits entity e path shape) (whole : Shape) : e.IsAdmittedOver whole := by
  unfold Expr.IsAdmittedOver
  induction h with
  | scalar _ _ => rfl
  | nonEmpty _ _ => rfl
  | entity _ _ => rfl
  | shapeNil _ => rfl
  | shapeCons _ _ ihe ihrest =>
    simp only [Expr.everywhere, everywhereMembers, Expr.isAdmitted, Bool.true_and] at ihrest ⊢
    simp [ihe, ihrest]

variable {V : Type} [DecidableEq V] {I : Interpretation V} {db : Database V} {ρ ρ' : Bindings V}

/-- Nothing is missing in what a shaper means. -/
theorem isComplete (h : Fits entity e path shape) (hfound : ∀ p ∈ shape, whole.lookup p.1 = some p.2) :
    (e.meaning I (fun _ => .missing) (whole.datumAt I db ρ)).isComplete = true := by
  induction h with
  | scalar path s =>
    rw [Expr.meaning, Shape.datumAt, hfound _ List.mem_cons_self]
    rfl
  | nonEmpty path s =>
    rw [Expr.meaning, Expr.meaning, Shape.datumAt, hfound _ List.mem_cons_self]
    rfl
  | @entity path columns _ =>
    rw [Expr.meaning, Shape.datumAt, hfound _ List.mem_cons_self]
    simp only [Projected.datum, Datum.isComplete]
    induction columns.columns with
    | nil => rfl
    | cons c rest ih => exact ih
  | shapeNil path => rfl
  | shapeCons _ _ ihe ihrest =>
    obtain ⟨hfirst, hothers⟩ := List.forall_mem_append.1 hfound
    have hrest := ihrest hothers
    rw [Expr.meaning, Datum.isComplete] at hrest
    rw [Expr.meaning, membersMeaning, Datum.isComplete, Datum.areComplete, ihe hfirst, hrest]
    rfl

/-- When a shaper means the same over the columns of two rows, the scalars of its shape are the same. -/
theorem eval_eq (h : Fits entity e path shape) (hfound : ∀ p ∈ shape, whole.lookup p.1 = some p.2)
    (heq : e.meaning I (fun _ => .missing) (whole.datumAt I db ρ) =
      e.meaning I (fun _ => .missing) (whole.datumAt I db ρ')) :
    ∀ s ∈ shape.scalars, s.eval I db ρ = s.eval I db ρ' := by
  induction h with
  | scalar path s =>
    simp only [Expr.meaning, Shape.datumAt, hfound _ List.mem_cons_self, Projected.datum,
      Datum.value.injEq] at heq
    simpa [Shape.scalars, Projected.scalars] using heq
  | nonEmpty path s =>
    simp only [Expr.meaning, Shape.datumAt, hfound _ List.mem_cons_self, Projected.datum,
      Datum.value.injEq] at heq
    simpa [Shape.scalars, Projected.scalars] using heq
  | @entity path columns _ =>
    simp only [Expr.meaning, Shape.datumAt, hfound _ List.mem_cons_self, Projected.datum,
      Datum.record.injEq] at heq
    intro s hs
    simp only [Shape.scalars, Projected.scalars, List.flatMap_cons, List.flatMap_nil,
      List.append_nil] at hs
    obtain ⟨c, hc, rfl⟩ := List.mem_map.1 hs
    simpa using List.map_inj_left.1 heq c hc
  | shapeNil path => exact List.forall_mem_nil _
  | shapeCons _ _ ihe ihrest =>
    obtain ⟨hfirst, hothers⟩ := List.forall_mem_append.1 hfound
    simp only [Expr.meaning, membersMeaning, Datum.record.injEq, List.cons.injEq, Prod.mk.injEq,
      true_and] at heq ihrest
    rw [Shape.scalars, List.flatMap_append]
    exact List.forall_mem_append.2 ⟨ihe hfirst heq.1, ihrest hothers heq.2⟩

end Fits

end QueryPipeline
