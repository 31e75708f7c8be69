import Mathlib.Tactic.Common
import QueryPipeline.Lowering.Selector

/-!
# How bodies become scalars

`Lowered scope e s` says by rules which scalar `s` a body `e` becomes over a draft, and `Bound scope e
path shaper shape` which shaper and shape a selector becomes. The functions that compute them follow these
rules, so that what holds of every scalar and every shape is proved by induction on the rules. A null takes
its type from what it is combined with; the rules only say that the type admits it.
-/

set_option autoImplicit false

namespace QueryPipeline

open Sql

/-- A computation in two steps succeeds when both steps do. -/
theorem bind_eq_ok {ε α β : Type} {x : Except ε α} {f : α → Except ε β} {b : β} :
    x >>= f = .ok b ↔ ∃ a, x = .ok a ∧ f a = .ok b := by
  cases x with
  | error e => exact ⟨nofun, fun ⟨_, h, _⟩ => nomatch h⟩
  | ok a => exact ⟨fun h => ⟨a, rfl, h⟩, fun ⟨_, rfl, h⟩ => h⟩

/-- A computation in two steps fails when its first step fails, or its second one does. -/
theorem bind_eq_error {ε α β : Type} {x : Except ε α} {f : α → Except ε β} {e : ε} :
    x >>= f = .error e ↔ x = .error e ∨ ∃ a, x = .ok a ∧ f a = .error e := by
  cases x with
  | error e' =>
    constructor
    · rintro ⟨⟩
      exact .inl rfl
    · rintro (⟨⟨⟩⟩ | ⟨_, h, _⟩)
      · rfl
      · cases h
  | ok a =>
    constructor
    · exact fun h => .inr ⟨a, rfl, h⟩
    · rintro (h | ⟨_, ⟨⟩, h⟩)
      · cases h
      · exact h

/-- A body becomes a scalar over a draft. -/
inductive Lowered (scope : Scope) : Expr → Scalar → Prop
  | constant (value : Literal) : Lowered scope (.constant value) (.constant value value.type)
  | null {type : DataType} (h : type.nullable = true) :
      Lowered scope (.constant .null) (.constant .null type)
  | parameter (name : String) (type : DataType) :
      Lowered scope (.parameter name type) (.parameter name type)
  | staticMember {name : QualifiedName} {s : Scalar}
      (h : scope.functions.member scope.catalog none name = .ok (some s)) :
      Lowered scope (.member none name) s
  | property {receiver : Expr} {name : QualifiedName} {entity : String} {path : MemberPath}
      {s : Scalar} (hr : receiver.reduceMembers = .entity entity path)
      (h : scope.draft.property? path name.name = some s) :
      Lowered scope (.member (some receiver) name) s
  | shapeMember {receiver : Expr} {name : QualifiedName} {members : List ShapeMember}
      {m : ShapeMember} {s : Scalar} (hr : receiver.reduceMembers = .shape members)
      (hm : findMember? members name.name = some m) (h : Lowered scope m.expr s) :
      Lowered scope (.member (some receiver) name) s
  | member {receiver : Expr} {name : QualifiedName} {value s : Scalar}
      (hentity : ∀ entity path, receiver.reduceMembers ≠ .entity entity path)
      (hshape : ∀ members, receiver.reduceMembers ≠ .shape members)
      (hr : Lowered scope receiver value)
      (h : scope.functions.member scope.catalog (some value) (qualify name (some value))
        = .ok (some s)) :
      Lowered scope (.member (some receiver) name) s
  | isNull {op : BinaryOp} {left right operand : Expr} {s : Scalar}
      (hop : op = .eq ∨ op = .ne) (hnull : (left.isNull != right.isNull) = true)
      (hoperand : operand = if right.isNull then left else right) (h : Lowered scope operand s) :
      Lowered scope (.binary op left right) (scope.catalog.isNull s (op = .ne))
  | binary {op : BinaryOp} {scalarOp : ScalarOp} {left right : Expr} {l r : Scalar}
      (hnull : ¬((op = .eq ∨ op = .ne) ∧ (left.isNull != right.isNull) = true))
      (hop : ScalarOp.ofBinaryOp? op = some scalarOp) (hl : Lowered scope left l)
      (hr : Lowered scope right r) :
      Lowered scope (.binary op left right) (scope.catalog.binary scalarOp l r)
  | not {operand : Expr} {s : Scalar} (h : Lowered scope operand s) :
      Lowered scope (.unary .not operand) (scope.catalog.not s)
  | negate {operand : Expr} {s : Scalar} (h : Lowered scope operand s) :
      Lowered scope (.unary .negate operand) s.negated
  | staticCall {function : QualifiedName} {args : List Expr} {ss : List Scalar} {s : Scalar}
      (hlen : args.length = ss.length) (hargs : ∀ p ∈ args.zip ss, Lowered scope p.1 p.2)
      (h : scope.functions.method scope.catalog none function ss = .ok (some s)) :
      Lowered scope (.call none function args) s
  | call {receiver : Expr} {function : QualifiedName} {args : List Expr} {value : Scalar}
      {ss : List Scalar} {s : Scalar} (hr : Lowered scope receiver value)
      (hlen : args.length = ss.length) (hargs : ∀ p ∈ args.zip ss, Lowered scope p.1 p.2)
      (h : scope.functions.method scope.catalog (some value) (qualify function (some value)) ss
        = .ok (some s)) :
      Lowered scope (.call (some receiver) function args) s
  | conditional {test ifTrue ifFalse : Expr} {t l r : Scalar} (ht : Lowered scope test t)
      (hl : Lowered scope ifTrue l) (hr : Lowered scope ifFalse r) :
      Lowered scope (.conditional test ifTrue ifFalse) (scope.catalog.case (t, l) [] (some r))
  | convert {operand : Expr} {type : DataType} {value s : Scalar} (ho : Lowered scope operand value)
      (h : convertScalar scope.catalog value type = some s) :
      Lowered scope (.convert operand type) s
  | binding {path : MemberPath} {type : DataType} {s : Scalar}
      (h : scope.draft.scalar? path = some s) : Lowered scope (.binding path type) s

/-- A selector becomes a shaper and a shape under a path. The members of a shape are taken one by one, so
the members that are left count as a shape of their own. -/
inductive Bound (scope : Scope) : Expr → MemberPath → Expr → Shape → Prop
  | leaf {e : Expr} {path : MemberPath} {s : Scalar}
      (hentity : ∀ entity source, e.reduceMembers ≠ .entity entity source)
      (hshape : ∀ members, e.reduceMembers ≠ .shape members)
      (h : scope.value e.reduceMembers = .ok (some s)) :
      Bound scope e path (.binding path s.type) [(path, .scalar s)]
  | entity {e : Expr} {entity : String} {source path : MemberPath} {columns : EntityColumns}
      (he : e.reduceMembers = .entity entity source)
      (h : scope.draft.projected? source = some (.entity columns)) :
      Bound scope e path (.entity entity path) [(path, .entity columns)]
  | shapeNil {e : Expr} {path : MemberPath} (he : e.reduceMembers = .shape []) :
      Bound scope e path (.shape []) []
  | shapeCons {e m bound : Expr} {path : MemberPath} {name : String} {rest others : List ShapeMember}
      {shape shapes : Shape} (he : e.reduceMembers = .shape (⟨some name, m⟩ :: rest))
      (hm : Bound scope m (path.append name) bound shape)
      (hrest : Bound scope (.shape rest) path (.shape others) shapes) :
      Bound scope e path (.shape (⟨some name, bound⟩ :: others)) (shape ++ shapes)

/-- An expression that is written as null is the null literal. -/
theorem Expr.eq_null_of_isNull {e : Expr} (h : e.isNull = true) : e = .constant .null := by
  unfold Expr.isNull at h
  split at h
  · rfl
  · cases h

namespace Scope

variable {scope : Scope}

/-- Two operands become scalars by the rules, one of them perhaps as the null of the other. -/
theorem pair_lowered {left right : Expr} {lowerLeft lowerRight : Answer} {l r : Scalar}
    (hl : ∀ s, lowerLeft = .ok (some s) → Lowered scope left s)
    (hr : ∀ s, lowerRight = .ok (some s) → Lowered scope right s)
    (h : pair left right lowerLeft lowerRight = .ok (some (l, r))) :
    Lowered scope left l ∧ Lowered scope right r := by
  unfold pair at h
  split at h
  · rename_i hnull
    obtain ⟨a, ha, h⟩ := bind_eq_ok.1 h
    cases a with
    | none => cases h
    | some s =>
      cases h
      rw [Expr.eq_null_of_isNull hnull]
      exact ⟨hl _ ha, .null rfl⟩
  · rename_i hnull _
    obtain ⟨a, ha, h⟩ := bind_eq_ok.1 h
    cases a with
    | none => cases h
    | some s =>
      cases h
      rw [Expr.eq_null_of_isNull hnull]
      exact ⟨.null rfl, hr _ ha⟩
  · obtain ⟨a, ha, h⟩ := bind_eq_ok.1 h
    obtain ⟨b, hb, h⟩ := bind_eq_ok.1 h
    cases a with
    | none => cases h
    | some s =>
      cases b with
      | none => cases h
      | some s' =>
        cases h
        exact ⟨hl _ ha, hr _ hb⟩

/-- A member of an entity is the column of the property. -/
theorem lower_property {receiver : Expr} {name : QualifiedName} {entity : String}
    {path : MemberPath} (hr : receiver.reduceMembers = .entity entity path) :
    scope.lower (.member (some receiver) name) = .ok (scope.draft.property? path name.name) := by
  rw [lower]
  split
  · rename_i heq
    rw [hr] at heq
    cases heq
    rfl
  · rename_i heq
    rw [hr] at heq
    cases heq
  · rename_i hentity _
    exact absurd hr (hentity _ _)

/-- A member of a shape that is written out is the member with this name. -/
theorem lower_shapeMember {receiver : Expr} {name : QualifiedName} {members : List ShapeMember}
    (hr : receiver.reduceMembers = .shape members) :
    scope.lower (.member (some receiver) name) =
      match findMember? members name.name with
      | some m => scope.lower m.expr
      | none => .unknown := by
  rw [lower]
  split
  · rename_i heq
    rw [hr] at heq
    cases heq
  · rename_i heq
    rw [hr] at heq
    cases heq
    split <;> simp_all
  · rename_i _ hshape
    exact absurd hr (hshape _)

/-- Any other member is asked of the functions. -/
theorem lower_member {receiver : Expr} {name : QualifiedName}
    (hentity : ∀ entity path, receiver.reduceMembers ≠ .entity entity path)
    (hshape : ∀ members, receiver.reduceMembers ≠ .shape members) :
    scope.lower (.member (some receiver) name) = do
      match ← scope.lower receiver with
      | some value => scope.functions.member scope.catalog (some value) (qualify name (some value))
      | none => return none := by
  rw [lower]
  split
  · rename_i heq
    exact absurd heq (hentity _ _)
  · rename_i heq
    exact absurd heq (hshape _)
  · rfl

/-- What a body becomes follows the rules. -/
theorem lower_lowered (e : Expr) : ∀ s, scope.lower e = .ok (some s) → Lowered scope e s := by
  -- the recursion goes through reduced receivers, which are no parts of the body
  refine Scope.lower.induct scope
    (fun e => ∀ s, scope.lower e = .ok (some s) → Lowered scope e s)
    (fun es => ∀ ss, scope.lowerArgs es = .ok (some ss) →
      es.length = ss.length ∧ ∀ p ∈ es.zip ss, Lowered scope p.1 p.2)
    ?constant ?parameter ?staticMember ?property ?shapeMember ?noMember ?member ?isNullLeft
    ?isNullRight ?binary ?noOp ?not ?negate ?staticCall ?call ?conditional ?convert ?binding
    ?param ?shape ?entity ?ensureNonEmpty ?nil ?cons e
  case constant =>
    intro value s h
    rw [lower] at h
    cases h
    exact .constant value
  case parameter =>
    intro name type s h
    rw [lower] at h
    cases h
    exact .parameter name type
  case staticMember =>
    intro name s h
    rw [lower] at h
    exact .staticMember h
  case property =>
    intro receiver name entity path hr s h
    rw [lower_property hr] at h
    exact .property hr (Except.ok.inj h)
  case shapeMember =>
    intro receiver name members hr m hm _ ih s h
    rw [lower_shapeMember hr, hm] at h
    exact .shapeMember hr hm (ih s h)
  case noMember =>
    intro receiver name members hr hm s h
    rw [lower_shapeMember hr, hm] at h
    cases h
  case member =>
    intro receiver name hentity hshape ih s h
    rw [lower_member hentity hshape] at h
    obtain ⟨_ | value, hv, h⟩ := bind_eq_ok.1 h
    · cases h
    · exact .member hentity hshape (ih value hv) h
  case isNullLeft =>
    intro op left right hop hright ih s h
    rw [lower, if_pos hop, if_pos hright] at h
    obtain ⟨_ | operand, ho, h⟩ := bind_eq_ok.1 h
    · cases h
    · cases h
      exact .isNull hop.1 hop.2 (if_pos hright).symm (ih operand ho)
  case isNullRight =>
    intro op left right hop hright ih s h
    rw [lower, if_pos hop, if_neg hright] at h
    obtain ⟨_ | operand, ho, h⟩ := bind_eq_ok.1 h
    · cases h
    · cases h
      exact .isNull hop.1 hop.2 (if_neg hright).symm (ih operand ho)
  case binary =>
    intro op left right hnull scalarOp hop ihl ihr s h
    rw [lower, if_neg hnull] at h
    simp only [hop] at h
    obtain ⟨_ | ⟨l, r⟩, hpair, h⟩ := bind_eq_ok.1 h
    · cases h
    · cases h
      obtain ⟨hl, hr⟩ := pair_lowered ihl ihr hpair
      exact .binary hnull hop hl hr
  case noOp =>
    intro op left right hnull hop s h
    rw [lower, if_neg hnull] at h
    simp only [hop] at h
    cases h
  case not =>
    intro operand ih s h
    rw [lower] at h
    obtain ⟨_ | value, hv, h⟩ := bind_eq_ok.1 h
    · cases h
    · cases h
      exact .not (ih value hv)
  case negate =>
    intro operand ih s h
    rw [lower] at h
    obtain ⟨_ | value, hv, h⟩ := bind_eq_ok.1 h
    · cases h
    · cases h
      exact .negate (ih value hv)
  case staticCall =>
    intro function args ih s h
    rw [lower] at h
    obtain ⟨_ | ss, hss, h⟩ := bind_eq_ok.1 h
    · cases h
    · obtain ⟨hlen, hargs⟩ := ih ss hss
      exact .staticCall hlen hargs h
  case call =>
    intro receiver function args ihr iha s h
    rw [lower] at h
    obtain ⟨_ | value, hv, h⟩ := bind_eq_ok.1 h
    · cases h
    · obtain ⟨_ | ss, hss, h⟩ := bind_eq_ok.1 h
      · cases h
      · obtain ⟨hlen, hargs⟩ := iha ss hss
        exact .call (ihr value hv) hlen hargs h
  case conditional =>
    intro test ifTrue ifFalse iht ihl ihr s h
    rw [lower] at h
    obtain ⟨_ | t, ht, h⟩ := bind_eq_ok.1 h
    · cases h
    · obtain ⟨_ | ⟨l, r⟩, hpair, h⟩ := bind_eq_ok.1 h
      · cases h
      · cases h
        obtain ⟨hl, hr⟩ := pair_lowered ihl ihr hpair
        exact .conditional (iht t ht) hl hr
  case convert =>
    intro operand type ih s h
    rw [lower] at h
    obtain ⟨_ | value, hv, h⟩ := bind_eq_ok.1 h
    · cases h
    · exact .convert (ih value hv) (Except.ok.inj h)
  case binding =>
    intro path type s h
    rw [lower] at h
    exact .binding (Except.ok.inj h)
  case param | shape | ensureNonEmpty =>
    intro _ s h
    rw [lower] at h
    cases h
  case entity =>
    intro _ _ s h
    rw [lower] at h
    cases h
  case nil =>
    intro ss h
    rw [lowerArgs] at h
    cases h
    exact ⟨rfl, nofun⟩
  case cons =>
    intro e rest ihe ihrest ss h
    rw [lowerArgs] at h
    obtain ⟨_ | s, hs, h⟩ := bind_eq_ok.1 h
    · cases h
    · obtain ⟨_ | rest', hrest, h⟩ := bind_eq_ok.1 h
      · cases h
      · cases h
        obtain ⟨hlen, hall⟩ := ihrest rest' hrest
        refine ⟨congrArg (· + 1) hlen, ?_⟩
        rw [List.zip_cons_cons]
        exact List.forall_mem_cons.2 ⟨ihe s hs, hall⟩

/-- A body in a context is the resolved scalar that the body becomes. -/
theorem lowerIn_eq_some {e : Expr} {asValue : Bool} {s : Scalar}
    (h : scope.lowerIn e asValue = .ok (some s)) :
    ∃ s', Lowered scope e s' ∧ s = (scope.catalog.resolve s').inContext asValue := by
  obtain ⟨_ | s', hs', h⟩ := bind_eq_ok.1 h
  · cases h
  · cases h
    exact ⟨s', lower_lowered e s' hs', rfl⟩

/-- Rules for the members of a shape are rules for whatever leads to the shape. -/
theorem bound_of_members {e : Expr} {members : List ShapeMember} {path : MemberPath}
    {bound : List ShapeMember} {shape : Shape} (he : e.reduceMembers = .shape members)
    (h : Bound scope (.shape members) path (.shape bound) shape) :
    Bound scope e path (.shape bound) shape := by
  cases h with
  | shapeNil hnil =>
    cases hnil
    exact .shapeNil he
  | shapeCons hcons hm hrest =>
    cases hcons
    exact .shapeCons he hm hrest

/-- A selector that leads to a shape becomes a shape of what the members become. -/
theorem bind_shape {e : Expr} {members : List ShapeMember} {path : MemberPath}
    (he : e.reduceMembers = .shape members) :
    scope.bind e path = do
      let (bound, shape) ← scope.bindMembers (.shape members) members path
      return (.shape bound, shape) := by
  rw [bind]
  split
  · rename_i heq
    rw [he] at heq
    cases heq
    rfl
  · rename_i heq
    rw [he] at heq
    cases heq
  · rename_i hshape _
    exact absurd he (hshape _)

/-- A selector that leads to an entity keeps it. -/
theorem bind_entity {e : Expr} {entity : String} {source path : MemberPath}
    (he : e.reduceMembers = .entity entity source) :
    scope.bind e path = scope.bindEntity entity source path := by
  rw [bind]
  split
  · rename_i heq
    rw [he] at heq
    cases heq
  · rename_i heq
    rw [he] at heq
    cases heq
    rfl
  · rename_i hentity
    exact absurd he (hentity _ _)

/-- Any other selector becomes a scalar. -/
theorem bind_leaf {e : Expr} {path : MemberPath}
    (hshape : ∀ members, e.reduceMembers ≠ .shape members)
    (hentity : ∀ entity source, e.reduceMembers ≠ .entity entity source) :
    scope.bind e path = scope.bindLeaf e.reduceMembers path := by
  rw [bind]
  split
  · rename_i heq
    exact absurd heq (hshape _)
  · rename_i heq
    exact absurd heq (hentity _ _)
  · rfl

/-- What a selector becomes follows the rules. -/
theorem bind_bound (e : Expr) (path : MemberPath) :
    ∀ shaper shape, scope.bind e path = .ok (shaper, shape) → Bound scope e path shaper shape := by
  -- as for bodies, the members come from a reduced selector
  refine Scope.bind.induct
    (fun e path => ∀ shaper shape, scope.bind e path = .ok (shaper, shape) →
      Bound scope e path shaper shape)
    (fun whole members path => ∀ bound shape, scope.bindMembers whole members path = .ok (bound, shape) →
      Bound scope (.shape members) path (.shape bound) shape)
    ?shape ?entity ?leaf ?nil ?unnamed ?cons e path
  case shape =>
    intro e path members he _ ih shaper shape h
    rw [bind_shape he] at h
    obtain ⟨⟨bound, shape'⟩, hmembers, h⟩ := bind_eq_ok.1 h
    cases h
    exact bound_of_members he (ih _ _ hmembers)
  case entity =>
    intro e path entity source he shaper shape h
    rw [bind_entity he] at h
    unfold bindEntity at h
    split at h
    · rename_i columns hcolumns
      cases h
      exact .entity he hcolumns
    · cases h
  case leaf =>
    intro e path hshape hentity shaper shape h
    rw [bind_leaf hshape hentity] at h
    unfold bindLeaf at h
    split at h
    · rename_i s hs
      cases h
      exact .leaf hentity hshape hs
    · cases h
    · cases h
  case nil =>
    intro whole path bound shape h
    rw [bindMembers] at h
    cases h
    exact .shapeNil rfl
  case unnamed =>
    intro whole path e rest bound shape h
    rw [bindMembers] at h
    cases h
  case cons =>
    intro whole path name e rest ihe ihrest bound shape h
    rw [bindMembers] at h
    obtain ⟨⟨first, shape'⟩, hfirst, h⟩ := bind_eq_ok.1 h
    obtain ⟨⟨others, shapes⟩, hothers, h⟩ := bind_eq_ok.1 h
    cases h
    exact .shapeCons rfl (ihe _ _ hfirst) (ihrest _ _ hothers)

end Scope

end QueryPipeline
