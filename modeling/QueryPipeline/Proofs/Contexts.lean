import QueryPipeline.Proofs.Statements

/-!
# Conditions and values in their places

A scalar records whether it is a condition and whether it stands where a value is expected. The invariant is
that both records are right in every scalar that the compiler makes: the operands of `AND`, `OR` and `NOT`
and the conditions of a `CASE` stand where a condition is expected, all other operands where a value is, and
a scalar is recorded as a condition when it is one by its form, or is a full-text search. A match is the
only form that does not say where its operands stand. They stand where a value is expected because they are
texts, and no text is a condition.
-/

set_option autoImplicit false

namespace QueryPipeline

open Sql

namespace Sql

/-- The operands of a node that have to be conditions. -/
def Node.conditions : Node → List Scalar
  | .binary op left right => if op.isLogical then [left, right] else []
  | .not operand => [operand]
  | .case branches _ => branches.map (·.test)
  | _ => []

/-- The operands of a node that have to be values. -/
def Node.values : Node → List Scalar
  | .binary op left right => if op.isLogical then [] else [left, right]
  | .negate operand | .isNull operand _ | .cast operand => [operand]
  | .function _ _ receiver args => receiver.toList ++ args
  | .case branches otherwise => branches.map (·.result) ++ otherwise.toList
  | .like subject pattern escape => subject :: pattern :: escape.toList
  | _ => []

section Operands

variable {op : ScalarOp} {left right : Scalar} {p : Scalar → Prop}

/-- Both operands of a logical operator stand for conditions. -/
theorem Node.forall_conditions_binary (hop : op.isLogical = true) :
    (∀ c ∈ (binary op left right).conditions, p c) ↔ p left ∧ p right := by
  simp [conditions, hop]

/-- Both operands of any other operator stand for values. -/
theorem Node.forall_values_binary (hop : op.isLogical = false) :
    (∀ v ∈ (binary op left right).values, p v) ↔ p left ∧ p right := by
  simp [values, hop]

end Operands

/-- The node is a full-text search. -/
def Node.isSearch : Node → Bool
  | .function name _ _ _ => QueryPipeline.isSearch name
  | _ => false

/-- A node without operands that is no question about a select. -/
def Node.isLeaf : Node → Bool
  | .column .. | .constant _ | .parameter _ | .fragment _ => true
  | _ => false

/-- The value that a function is written behind. -/
def Node.receiver? : Node → Option Scalar
  | .function _ _ receiver _ => receiver
  | _ => none

/-- A scalar knows whether it is a condition, its operands know where they stand, functions are written
without a receiver, and conditions are true or false. -/
structure Scalar.InPlace (s : Scalar) : Prop where
  conditions : ∀ c ∈ s.node.conditions, c.asValue = false
  values : ∀ v ∈ s.node.values, v.asValue = true
  receiver : s.node.receiver? = none
  form : s.isCondition = (s.node.isConditionForm || s.node.isSearch)
  bool (h : s.isCondition = true) : s.isBool = true

/-- All scalars in a scalar are in place. -/
def Scalar.Placed (s : Scalar) : Prop := s.All Scalar.InPlace

/-- A part of a scalar is in place, and so are the scalars of a select that it asks about. -/
structure Scalar.Settles (s : Scalar) : Prop where
  inPlace : s.InPlace
  existence : ∀ inner negated, s.node = .existsIn inner negated →
    inner.AllHold fun _ s => s.Placed

section Mapping

variable (m : TypeMapping)

/-- A mapping changes nothing about which operands are conditions. -/
theorem Node.conditions_withMapping (n : Node) : (n.withMapping m).conditions = n.conditions := by
  cases n with
  | binary op left right =>
    rw [Node.withMapping]
    split
    · rfl
    · rename_i hop
      simp only [Bool.or_eq_true, not_or, Bool.not_eq_true] at hop
      simp [Node.conditions, hop.2]
  | case branches otherwise =>
    rw [Node.withMapping, Node.conditions, Node.conditions]
    induction branches with
    | nil => rfl
    | cons b rest ih =>
      obtain ⟨test, result⟩ := b
      rw [branchesWithMapping, List.map_cons, List.map_cons, ih]
  | _ => rfl

/-- A result of a `CASE` with a mapping stands where the result stood before. -/
theorem results_withMapping {branches : List CaseBranch} {s : Scalar}
    (h : s ∈ (branchesWithMapping m branches).map (·.result)) :
    ∃ s' ∈ branches.map (·.result), s.asValue = s'.asValue := by
  rw [map_result_branchesWithMapping] at h
  obtain ⟨b, hb, rfl⟩ := List.mem_map.1 h
  exact ⟨b.result, List.mem_map.2 ⟨b, hb, rfl⟩, b.result.asValue_withMapping m⟩

/-- A mapping does not move the operands of a node. -/
theorem Node.values_withMapping {n : Node} {v : Scalar} (h : v ∈ (n.withMapping m).values) :
    ∃ v' ∈ n.values, v.asValue = v'.asValue := by
  cases n with
  | negate operand =>
    cases List.mem_singleton.1 h
    exact ⟨operand, List.mem_singleton_self _, operand.asValue_withMapping m⟩
  | binary op left right =>
    rw [Node.withMapping] at h
    split at h
    · exact ⟨v, h, rfl⟩
    · rename_i hop
      simp only [Bool.or_eq_true, not_or, Bool.not_eq_true] at hop
      simp only [Node.values, hop.2, Bool.false_eq_true, if_false, List.mem_cons, List.not_mem_nil,
        or_false] at h ⊢
      rcases h with rfl | rfl
      · exact ⟨left, .inl rfl, left.asValue_withMapping m⟩
      · exact ⟨right, .inr rfl, right.asValue_withMapping m⟩
  | case branches otherwise =>
    rw [Node.withMapping, Node.values, List.mem_append] at h
    rw [Node.values]
    rcases h with h | h
    · obtain ⟨v', hv', hvalue⟩ := results_withMapping m h
      exact ⟨v', List.mem_append_left _ hv', hvalue⟩
    · cases otherwise with
      | none => cases h
      | some s =>
        cases List.mem_singleton.1 h
        exact ⟨s, List.mem_append_right _ (List.mem_singleton_self _), s.asValue_withMapping m⟩
  | _ => exact ⟨v, h, rfl⟩

/-- A mapping changes nothing about whether a node is a condition. -/
theorem Node.isConditionForm_withMapping (n : Node) :
    (n.withMapping m).isConditionForm = n.isConditionForm := by
  cases n with
  | binary op left right =>
    rw [Node.withMapping]
    split <;> rfl
  | _ => rfl

/-- A mapping changes nothing about whether a node is a search. -/
theorem Node.isSearch_withMapping (n : Node) : (n.withMapping m).isSearch = n.isSearch := by
  cases n with
  | binary op left right =>
    rw [Node.withMapping]
    split <;> rfl
  | _ => rfl

/-- A mapping changes nothing about the value that a function belongs to. -/
theorem Node.receiver?_withMapping (n : Node) : (n.withMapping m).receiver? = n.receiver? := by
  cases n with
  | binary op left right =>
    rw [Node.withMapping]
    split <;> rfl
  | _ => rfl

/-- A scalar stays in place with a mapping. -/
theorem Scalar.inPlace_keptByMapping : KeptByMapping Scalar.Settles m := by
  intro s h
  refine ⟨⟨?_, ?_, ?_, ?_, ?_⟩, ?_⟩
  · rw [Node.conditions_withMapping]
    exact h.inPlace.conditions
  · intro v hv
    obtain ⟨v', hv', hvalue⟩ := Node.values_withMapping m hv
    rw [hvalue]
    exact h.inPlace.values v' hv'
  · rw [Node.receiver?_withMapping]
    exact h.inPlace.receiver
  · rw [Node.isConditionForm_withMapping, Node.isSearch_withMapping]
    exact h.inPlace.form
  · exact h.inPlace.bool
  · intro inner negated hnode
    exact h.existence inner negated (Node.eq_of_withMapping hnode nofun nofun nofun)

end Mapping

/-- All scalars in a scalar are in place, and so are those of the selects that they ask about. -/
def Scalar.Set (s : Scalar) : Prop := s.All Scalar.Settles

/-- A scalar that is no condition stands where a value is expected. -/
structure Scalar.Usable (s : Scalar) : Prop where
  set : s.Set
  asValue (h : s.isCondition = false) : s.asValue = true

/-- A scalar that may be matched with a pattern. -/
def Scalar.IsValue (s : Scalar) : Prop := s.isCondition = false ∧ s.asValue = true

namespace Scalar

variable {s : Scalar}

/-- Scalars whose parts are settled stand where they belong. -/
theorem Set.placed (h : s.Set) : s.Placed := fun part hpart => (h part hpart).inPlace

/-- A scalar that gets a mapping is as settled as before. -/
theorem Set.withMapping (m : TypeMapping) (h : s.Set) : (s.withMapping m).Set :=
  All.withMapping (inPlace_keptByMapping m) s h

/-- A scalar with the mapping of the catalog is as settled as before. -/
theorem Set.resolve (catalog : Catalog) (h : s.Set) : (catalog.resolve s).Set := by
  unfold Catalog.resolve
  split
  · exact h.withMapping _
  · exact h

/-- A scalar with a mapping from elsewhere or from the catalog is as settled as before. -/
theorem Set.resolveFrom (catalog : Catalog) (known : Option TypeMapping) (h : s.Set) :
    (catalog.resolveFrom known s).Set := by
  unfold Catalog.resolveFrom
  split
  · exact h.withMapping _
  · exact h.resolve catalog

/-- Where a scalar stands itself does not matter for what is in it. -/
theorem Settles.inContext (s : Scalar) (asValue : Bool) (h : s.Settles) : (s.inContext asValue).Settles :=
  ⟨⟨h.inPlace.conditions, h.inPlace.values, h.inPlace.receiver, h.inPlace.form, h.inPlace.bool⟩,
    h.existence⟩

/-- A scalar that is put somewhere else is as settled as before. -/
theorem Set.inContext (asValue : Bool) (h : s.Set) : (s.inContext asValue).Set :=
  All.inContext Settles.inContext h asValue

/-- A scalar where it belongs by nature is usable when its operands stand where they belong. -/
theorem usable_natural {node : Node} {type : DataType} {mapping : Option TypeMapping}
    (hparts : ∀ part ∈ node.parts, part.Settles) (hconditions : ∀ c ∈ node.conditions, c.asValue = false)
    (hvalues : ∀ v ∈ node.values, v.asValue = true) (hreceiver : node.receiver? = none)
    (hsearch : node.isSearch = false) (hbool : node.isConditionForm = true → type.kind = .bool)
    (hexistence : ∀ inner negated, node = .existsIn inner negated →
      inner.AllHold fun _ s => s.Placed) : (natural node type mapping).Usable := by
  refine ⟨all_iff.2 ⟨⟨⟨hconditions, hvalues, hreceiver, ?_, fun h => ?_⟩, hexistence⟩, hparts⟩,
    fun h => ?_⟩
  · show node.isConditionForm = (node.isConditionForm || node.isSearch)
    rw [hsearch, Bool.or_false]
  · exact beq_iff_eq.2 (hbool h)
  · show (!node.isConditionForm) = true
    rw [show node.isConditionForm = false from h]
    rfl

/-- A scalar without operands is usable. -/
theorem usable_leaf {node : Node} (hleaf : node.isLeaf = true) (type : DataType)
    (mapping : Option TypeMapping) : (natural node type mapping).Usable := by
  cases node with
  | column _ _ | constant _ | parameter _ | fragment _ =>
    exact usable_natural nofun nofun nofun rfl rfl nofun nofun
  | _ => cases hleaf

/-- A usable scalar with a mapping is usable. -/
theorem Usable.withMapping (m : TypeMapping) (h : s.Usable) : (s.withMapping m).Usable :=
  ⟨h.set.withMapping m, by simpa using h.asValue⟩

/-- A usable scalar with the mapping of the catalog is usable. -/
theorem Usable.resolve (catalog : Catalog) (h : s.Usable) : (catalog.resolve s).Usable :=
  ⟨h.set.resolve catalog, by simpa using h.asValue⟩

/-- An operation on settled operands is usable. -/
theorem usable_binary (op : ScalarOp) {left right : Scalar} {type : DataType}
    (mapping : Option TypeMapping) (hl : left.Set) (hr : right.Set)
    (hbool : (op.isComparison || op.isLogical) = true → type.kind = .bool) :
    (Scalar.binary op left right type mapping).Usable := by
  refine usable_natural (parts_binary Settles.inContext op type mapping hl hr) ?_ ?_ rfl rfl hbool nofun
  · cases hop : op.isLogical <;> simp [Node.conditions, hop, inContext]
  · cases hop : op.isLogical <;> simp [Node.values, hop, inContext]

end Scalar

end Sql

open Sql.Scalar

section Composition

variable {catalog : Catalog} {s : Scalar}

/-- A negation of a settled scalar is usable. -/
theorem usable_not (h : s.Set) : (catalog.not s).Usable :=
  usable_natural (((h.resolve catalog).inContext false)) (List.forall_mem_singleton.2 rfl)
    (List.forall_mem_nil _) rfl rfl (fun _ => rfl) nofun

/-- A function of settled arguments is usable, unless it is a search. -/
theorem usable_function {name : String} (hname : isSearch name = false) {args : List Scalar}
    (type : DataType) (mapping : Option TypeMapping) (h : ∀ a ∈ args, a.Set) :
    (catalog.functionWith name none args type mapping).Usable := by
  refine usable_natural (Catalog.parts_functionWith Settles.inContext name type mapping
    fun a ha => (h a ha).resolve catalog) (List.forall_mem_nil _) ?_ rfl hname nofun nofun
  intro v hv
  obtain ⟨a, -, rfl⟩ := List.mem_map.1 hv
  rfl

/-- A full-text search is set as a condition. -/
theorem usable_search {name : String} (hname : isSearch name = true) {args : List Scalar}
    (mapping : Option TypeMapping) (h : ∀ a ∈ args, a.Set) :
    (catalog.functionWith name none args .bool mapping).asPredicate.Usable := by
  refine ⟨all_iff.2 ⟨⟨⟨List.forall_mem_nil _, ?_, rfl, hname.symm, fun _ => rfl⟩, nofun⟩, ?_⟩, nofun⟩
  · intro v hv
    obtain ⟨a, -, rfl⟩ := List.mem_map.1 hv
    rfl
  · exact Catalog.parts_functionWith Settles.inContext name .bool mapping
      fun a ha => (h a ha).resolve catalog

/-- A cast of a settled scalar is usable. -/
theorem usable_castTo (type : DataType) (m : TypeMapping) (h : s.Set) :
    ((catalog.resolve s).castTo type m).Usable :=
  usable_natural ((h.resolve catalog).inContext true) (List.forall_mem_nil _)
    (List.forall_mem_singleton.2 rfl) rfl rfl nofun nofun

/-- A `CASE` of settled scalars is usable. -/
theorem usable_case {test ifTrue ifFalse : Scalar} (ht : test.Set) (hl : ifTrue.Set)
    (hr : ifFalse.Set) : (catalog.case (test, ifTrue) [] (some ifFalse)).Usable := by
  refine usable_natural (Catalog.parts_case Settles.inContext (ht.resolve catalog)
    (fun known => hl.resolveFrom catalog known) fun known => hr.resolveFrom catalog known)
    (List.forall_mem_singleton.2 rfl) ?_ rfl rfl nofun nofun
  exact List.forall_mem_cons.2 ⟨rfl, List.forall_mem_singleton.2 rfl⟩

/-- A match of values is usable. -/
theorem usable_like {subject pattern : Scalar} {escape : Option Scalar} (hs : subject.Set)
    (hsubject : subject.asValue = true) (hp : pattern.Set) (hpattern : pattern.asValue = true)
    (he : ∀ e ∈ escape, e.Set ∧ e.asValue = true) : (catalog.like subject pattern escape).Usable := by
  refine usable_natural (Catalog.parts_like (fun known => hs.resolveFrom catalog known)
    (fun known => hp.resolveFrom catalog known)
    fun e hescape known => (he e hescape).1.resolveFrom catalog known) (List.forall_mem_nil _) ?_ rfl rfl
    (fun _ => rfl) nofun
  refine List.forall_mem_cons.2 ⟨by simpa using hsubject, List.forall_mem_cons.2
    ⟨by simpa using hpattern, fun v hv => ?_⟩⟩
  obtain ⟨e, hescape, rfl⟩ := Option.map_eq_some_iff.1 (Option.mem_toList.1 hv)
  simpa using (he e hescape).2

/-- Usable scalars are put together to usable ones, if values are matched with patterns. -/
theorem usable_composed (catalog : Catalog) : Composed catalog Scalar.Usable Scalar.IsValue where
  text _ := usable_leaf rfl _ _
  fragment _ _ := usable_leaf rfl _ _
  int _ := usable_leaf rfl _ _
  withMapping {_ m} _ h := h.withMapping m
  resolve h := h.resolve catalog
  retype {s type} hkind h := by
    have hself := h.set.self
    refine ⟨h.set.ofNode rfl ⟨⟨hself.inPlace.conditions, hself.inPlace.values,
      hself.inPlace.receiver, hself.inPlace.form, fun hcondition => ?_⟩, hself.existence⟩, h.asValue⟩
    rw [Scalar.isBool, ← hkind]
    exact hself.inPlace.bool hcondition
  binary op left right hl hr := by
    obtain ⟨known, type, mapping, heq, hbool⟩ := catalog.exists_binary op left right
    rw [heq]
    exact usable_binary op mapping (hl.set.resolveFrom catalog known)
      (hr.set.resolveFrom catalog known) hbool
  not h := usable_not h.set
  isNull _ h := usable_natural ((h.set.resolve catalog).inContext true) (List.forall_mem_nil _)
    (List.forall_mem_singleton.2 rfl) rfl rfl (fun _ => rfl) nofun
  negated h := usable_natural (h.set.inContext true) (List.forall_mem_nil _)
    (List.forall_mem_singleton.2 rfl) rfl rfl nofun nofun
  case ht hl hr := usable_case ht.set hl.set hr.set
  function hname type _ h := by
    simp only [isFunctionName, Bool.and_eq_true, Bool.not_eq_true'] at hname
    exact usable_function hname.2 type _ fun a ha => (h a ha).set
  search hname h := usable_search hname _ fun a ha => (h a ha).set
  like hs hst hp hpt he :=
    usable_like hs.set hst.2 hp.set hpt.2 fun e hescape => ⟨(he e hescape).1.set, (he e hescape).2.2⟩
  castTo _ h := usable_castTo _ _ h.set
  withoutCast {s} h := by
    unfold Scalar.withoutCast
    split
    · rename_i operand hnode
      have hparts := (all_iff.1 h.set).2
      have hvalues := h.set.self.inPlace.values
      rw [hnode] at hparts hvalues
      exact ⟨hparts, fun _ => hvalues operand (List.mem_singleton_self _)⟩
    · exact h
  matchable_text _ := ⟨rfl, rfl⟩
  matchable_add left right := by
    obtain ⟨known, type, mapping, heq, -⟩ := catalog.exists_binary .add left right
    rw [show catalog.add left right = _ from heq]
    exact ⟨rfl, rfl⟩
  matchable_withMapping m h := ⟨by simpa using h.1, by simpa using h.2⟩
  matchable_resolve h := ⟨by simpa using h.1, by simpa using h.2⟩

end Composition

/-- Operators keep scalars in place. -/
theorem set_kept (env : Environment) :
    Kept env (fun _ s => s.Placed) (fun _ s => s.Set) fun _ s => s.Usable where
  sound h := h.placed
  nested h hpart hnode := (h _ hpart).existence _ _ hnode
  weaken h hvalue := ⟨h, fun _ => hvalue⟩
  resolve h := h.set.resolve env.catalog
  inContext asValue h := h.inContext asValue
  conjunction hl hr := (usable_binary .and _ hl hr fun _ => rfl).set
  not h := (usable_not h).set
  fragment _ _ _ := usable_leaf rfl _ _
  function hname _ type h := by
    refine (usable_function ?_ type _ fun a ha => (h a ha).set).set
    have hall : ∀ name ∈ Environment.rowFunctions, isSearch name = false := by decide
    exact hall _ hname
  castTo type m h := (usable_castTo type m h.set).set
  int _ i := ((usable_composed env.catalog).int i).set
  column h := by
    obtain ⟨_, _, _, _, _, rfl⟩ := h
    exact (usable_leaf rfl _ _).set
  existence negated h := by
    refine (usable_natural (List.forall_mem_nil _) (List.forall_mem_nil _) (List.forall_mem_nil _) rfl rfl
      (fun _ => rfl) ?_).set
    rintro _ _ ⟨⟩
    exact h

/-- A body is called with names of its own, not with those of other values. -/
def Expr.isUnqualified (e : Expr) : Bool := e.callsOnly (·.path.isEmpty)

/-- Texts share their functions with no other kind of values. -/
theorem DataKind.eq_text_of_owner {kind : DataKind} (h : kind.owner = DataKind.text.owner) :
    kind = .text := by
  cases kind <;> simp [DataKind.owner] at h ⊢

/-- A value that a text function belongs to is a text, so it is no condition. -/
theorem isValue_of_textOwner {value : Scalar} {name : QualifiedName} (h : value.Usable)
    (hname : name.path.isEmpty = true)
    (howner : (qualify name (some value)).owner? = some DataKind.text.owner) : value.IsValue := by
  simp only [qualify, hname, if_true, QualifiedName.owned, QualifiedName.owner?, List.getLast?_singleton,
    Option.some.injEq] at howner
  have hkind := DataKind.eq_text_of_owner howner
  have hcondition : value.isCondition = false := by
    refine Bool.eq_false_iff.2 fun hcondition => ?_
    have hbool := h.set.self.inPlace.bool hcondition
    rw [Scalar.isBool, hkind] at hbool
    cases hbool
  exact ⟨hcondition, h.asValue hcondition⟩

/-- Bodies that call functions by unqualified names keep scalars in place. -/
theorem set_bodiesKept (model : Model) (options : Options) :
    BodiesKept (Compiler.new model options).environment (·.isUnqualified = true) (·.path.isEmpty)
      fun _ s => s.Usable := by
  have hcomposed := usable_composed (Compiler.new model options).environment.catalog
  have hleaves : Expr.Leaves Scalar.Usable Scalar.IsValue (Expr.nameAllowed (·.path.isEmpty)) :=
    ⟨fun _ => usable_leaf rfl _ _, fun _ => usable_leaf rfl _ _, fun _ => usable_leaf rfl _ _,
      isValue_of_textOwner⟩
  have hlowered : ∀ {d : Draft}, (∀ s ∈ d.shape.scalars, s.Usable) → ∀ {e : Expr},
      e.isUnqualified = true → ∀ {s : Scalar},
      Lowered ⟨(Compiler.new model options).environment.catalog,
        (Compiler.new model options).environment.functions, d⟩ e s → s.Usable :=
    fun hd _ he _ h => h.keepsFor hcomposed (hcomposed.ofDialect_keep options.dialect) hleaves hd he
  exact ⟨id, hlowered, hlowered⟩

end QueryPipeline
