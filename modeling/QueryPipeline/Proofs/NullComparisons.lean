import QueryPipeline.Proofs.LeadingLiterals
import QueryPipeline.Proofs.Nesting

/-!
# Comparisons with null

Whether a value is null is asked by `IS NULL`: a comparison with a null that is written out is never true.
The compiler sees a null only where one operand, and not both, is the literal itself. A null can also come to a
comparison in the other operand, through a conversion, through a member of a shape that is written out, or as
what an earlier selector projects, and functions compare what they are given. In pipelines without such nulls, no
comparison for being the same or different has one for an operand, in selects at any depth.
-/

set_option autoImplicit false

namespace QueryPipeline

open Sql

mutual

/-- A scalar is a null that is written out, perhaps in another store type. -/
def Sql.Scalar.isWrittenNull : Scalar → Bool
  | ⟨node, _, _, _, _⟩ => node.isWrittenNull

/-- A node is a null that is written out, perhaps in another store type. -/
def Sql.Node.isWrittenNull : Node → Bool
  | .constant value => value.isNull
  | .cast operand => operand.isWrittenNull
  | _ => false

end

/-- A node compares two values for being the same or different, and one of them is a null that is written
out. -/
def Sql.Node.comparesNull : Node → Bool
  | .binary op left right =>
    (op == .equal || op == .notEqual) && (left.isWrittenNull || right.isWrittenNull)
  | _ => false

/-- No scalar of a select compares with a null that is written out. -/
def Sql.Select.ComparesValues (s : Select) : Prop :=
  ∀ whole ∈ s.scalars, ∀ part ∈ whole.parts, part.node.comparesNull = false

mutual

/-- The accesses `pending`, first access first, lead from an expression to a null that is written out, perhaps
in another type. Where they end at a shape, its members are looked at if `inside` says so. -/
def Expr.leadsToNull (inside : Bool) : Expr → List String → Bool
  | .constant value, [] => value.isNull
  | .convert operand _, [] => operand.leadsToNull inside []
  | .member (some receiver) name, pending => receiver.leadsToNull inside (name.name :: pending)
  | .shape members, [] => inside && anyLeadsToNull inside members
  | .shape members, first :: pending => memberLeadsToNull inside members first pending
  | _, _ => false

/-- The accesses `pending` lead to a null from the first member with a name. -/
def memberLeadsToNull (inside : Bool) : List ShapeMember → String → List String → Bool
  | [], _, _ => false
  | ⟨name, e⟩ :: rest, first, pending =>
    if name = some first then e.leadsToNull inside pending else memberLeadsToNull inside rest first pending

/-- One of some members is a null. -/
def anyLeadsToNull (inside : Bool) : List ShapeMember → Bool
  | [] => false
  | ⟨_, e⟩ :: rest => e.leadsToNull inside [] || anyLeadsToNull inside rest

end

/-- A null is compared only where it is written as one of the two operands, and it is not given to a function. -/
def Expr.spellsNull : Expr → Bool
  | .binary op left right =>
    !(op == .eq || op == .ne) || (left.isNull != right.isNull) ||
      !(left.leadsToNull false [] || right.leadsToNull false [])
  | .member (some receiver) _ => !receiver.leadsToNull false []
  | .call receiver _ args =>
    receiver.all (!·.leadsToNull false []) && args.all (!·.leadsToNull false [])
  | _ => true

/-- A body is no null, and neither is a member of the shape that it is; in all parts of it, nulls are compared
only where they are written as one of the operands. -/
def Expr.hidesNoNull (e : Expr) : Bool := !e.leadsToNull true [] && e.everywhere Expr.spellsNull

namespace Expr

variable {inside : Bool}

/-- A constant leads to a null when it is one. -/
theorem leadsToNull_constant (value : Literal) :
    (Expr.constant value).leadsToNull inside [] = value.isNull := rfl

/-- A conversion leads to a null when its operand does. -/
theorem leadsToNull_convert (operand : Expr) (type : DataType) :
    (Expr.convert operand type).leadsToNull inside [] = operand.leadsToNull inside [] := rfl

/-- A shape leads to a null when one of its members does, as far as members count. -/
theorem leadsToNull_shape (members : List ShapeMember) :
    (Expr.shape members).leadsToNull inside [] = (inside && anyLeadsToNull inside members) := rfl

mutual

/-- Nulls are among the literals that expressions may lead to, without signs and whatever they are converted to. -/
theorem leadsToNull_eq (inside : Bool) :
    ∀ (e : Expr) (kinds : List DataKind) (pending : List String),
      e.leadsToNull inside pending = e.leadsTo (fun _ value => value.isNull) false inside kinds pending
  | .convert operand type, kinds, [] => leadsToNull_eq inside operand (type.kind :: kinds) []
  | .member (some receiver) name, kinds, pending => leadsToNull_eq inside receiver kinds (name.name :: pending)
  | .shape members, kinds, [] => by
    rw [leadsToNull_shape, leadsTo_shape, anyLeadsToNull_eq inside members]
  | .shape members, kinds, first :: pending => memberLeadsToNull_eq inside members kinds first pending
  | .constant _, _, [] | .constant _, _, _ :: _ | .unary .negate _, _, [] | .unary .negate _, _, _ :: _
  | .unary .not _, _, _ | .convert _ _, _, _ :: _ | .member none _, _, _ | .param _, _, _ | .parameter _ _, _, _
  | .binary _ _ _, _, _ | .call _ _ _, _, _ | .conditional _ _ _, _, _ | .entity _ _, _, _ | .binding _ _, _, _
  | .ensureNonEmpty _, _, _ => rfl

/-- Accesses lead to a null from the first member with a name just as they lead to any literal. -/
theorem memberLeadsToNull_eq (inside : Bool) :
    ∀ (members : List ShapeMember) (kinds : List DataKind) (first : String) (pending : List String),
      memberLeadsToNull inside members first pending =
        memberLeadsTo (fun _ value => value.isNull) false inside members kinds first pending
  | [], _, _, _ => rfl
  | ⟨_, e⟩ :: rest, kinds, first, pending => by
    rw [memberLeadsToNull, memberLeadsTo, leadsToNull_eq inside e kinds, memberLeadsToNull_eq inside rest kinds]

/-- Members are nulls just as they are any literals. -/
theorem anyLeadsToNull_eq (inside : Bool) :
    ∀ (members : List ShapeMember) (kinds : List DataKind),
      anyLeadsToNull inside members = anyLeadsTo (fun _ value => value.isNull) false inside members kinds
  | [], _ => rfl
  | ⟨_, e⟩ :: rest, kinds => by
    rw [anyLeadsToNull, anyLeadsTo, leadsToNull_eq inside e kinds, anyLeadsToNull_eq inside rest kinds]

end

/-- To reduce the accesses to members keeps whether accesses lead to a null. -/
theorem leadsToNull_reduceMembers (e : Expr) (pending : List String) :
    e.reduceMembers.leadsToNull inside pending = e.leadsToNull inside pending := by
  rw [leadsToNull_eq inside _ [], leadsToNull_eq inside _ [], leadsTo_reduceMembers]

/-- A member of a shape that is written out leads to a null where the expression of the member does. -/
theorem leadsToNull_member {receiver : Expr} {name : QualifiedName} {members : List ShapeMember}
    {m : ShapeMember} (hr : receiver.reduceMembers = .shape members)
    (hm : findMember? members name.name = some m) (pending : List String) :
    (Expr.member (some receiver) name).leadsToNull inside pending = m.expr.leadsToNull inside pending := by
  rw [leadsToNull_eq inside _ [], leadsToNull_eq inside _ [], leadsTo_member hr hm]

section Inlining

variable {f : String → Expr} (hf : ∀ name, (f name).everywhere Expr.isShaperForm = true ∨ ∃ p, f name = .param p)
include hf

/-- Where shapers take the place of parameters, the outcome leads to a null where the expression did before. -/
theorem leadsToNull_mapParams (e : Expr) (pending : List String) :
    (e.mapParams f).leadsToNull inside pending = e.leadsToNull inside pending := by
  rw [leadsToNull_eq inside _ [], leadsToNull_eq inside _ []]
  refine leadsTo_mapParams (fun name kinds pending => ?_) e [] pending
  rcases hf name with h | ⟨p, h⟩
  · exact leadsTo_of_shaper _ kinds pending h
  · rw [h, leadsTo_param]

/-- Where shapers take the place of parameters, arguments lead to nulls where they did before. -/
theorem all_leadsToNull_mapParams (args : List Expr) :
    (mapParamsArgs f args).all (!·.leadsToNull inside []) = args.all (!·.leadsToNull inside []) := by
  induction args with
  | nil => rfl
  | cons e rest ih => rw [mapParamsArgs, List.all_cons, List.all_cons, leadsToNull_mapParams hf, ih]

end Inlining

/-- A body hides no null when a shaper takes the place of its parameter. -/
theorem hidesNoNull_inline {f : Lambda} {argument : Expr} (hbody : f.body.hidesNoNull = true)
    (harg : argument.everywhere Expr.isShaperForm = true) : (f.inline argument).hidesNoNull = true := by
  have hparam : ∀ name : String,
      (if name = f.param then argument else .param name).everywhere Expr.isShaperForm = true ∨
        ∃ p, (if name = f.param then argument else .param name) = Expr.param p := by
    intro name
    split
    · exact .inl harg
    · exact .inr ⟨name, rfl⟩
  have hnull : ∀ name : String, (if name = f.param then argument else .param name).isNull = false := by
    intro name
    split
    · have hform := Expr.everywhere_self harg
      cases argument with
      | constant _ => cases hform
      | _ => rfl
    · rfl
  simp only [hidesNoNull, Bool.and_eq_true, Bool.not_eq_true'] at hbody ⊢
  refine ⟨?_, Expr.everywhere_mapParams (fun e he hne => ?_) (fun name _ => ?_) f.body hbody.2⟩
  · rw [Lambda.inline, substitute, leadsToNull_mapParams hparam, hbody.1]
  · have hself := Expr.everywhere_self he
    cases e with
    | param name => exact absurd rfl (hne name)
    | binary op left right =>
      simpa only [spellsNull, mapParams, isNull_mapParams hnull, leadsToNull_mapParams hparam]
        using hself
    | member receiver name =>
      cases receiver with
      | none => rfl
      | some e => simpa only [spellsNull, mapParams, mapParamsReceiver, leadsToNull_mapParams hparam]
          using hself
    | call receiver function args =>
      cases receiver with
      | none => simpa only [spellsNull, mapParams, mapParamsReceiver, Option.all_none,
          all_leadsToNull_mapParams hparam] using hself
      | some e => simpa only [spellsNull, mapParams, mapParamsReceiver, Option.all_some,
          leadsToNull_mapParams hparam, all_leadsToNull_mapParams hparam] using hself
    | _ => rfl
  · split
    · refine Expr.everywhere_imp (fun e he => ?_) harg
      have hform := Expr.everywhere_self he
      cases e with
      | binary _ _ _ | member _ _ | call _ _ _ => cases hform
      | _ => rfl
    · rfl

end Expr

section Scalars

variable {P : Select → Prop} {catalog : Catalog}

/-- A node compares with no null that is written out, and all selects that it asks about have a property. -/
structure Sql.Node.ComparesValues (P : Select → Prop) (n : Node) : Prop where
  comparison : n.comparesNull = false
  questions : n.AsksOnly P

/-- A scalar is no null that is written out, and none is compared in it. -/
structure Sql.Scalar.IsPresent (P : Select → Prop) (s : Scalar) : Prop where
  nodes : s.AllNodes (Node.ComparesValues P)
  present : s.isWrittenNull = false

namespace Sql

/-- Whether a scalar is a written null is a matter of its node. -/
theorem Scalar.isWrittenNull_eq (s : Scalar) : s.isWrittenNull = s.node.isWrittenNull := by
  obtain ⟨node, type, mapping, isCondition, asValue⟩ := s
  rw [isWrittenNull]

/-- A mapping makes no null of a node, and no other node of a null. -/
theorem Node.isWrittenNull_withMapping (m : TypeMapping) (n : Node) :
    (n.withMapping m).isWrittenNull = n.isWrittenNull := by
  cases n with
  | binary op left right =>
    rw [withMapping]
    split <;> simp [isWrittenNull]
  | _ => simp [withMapping, isWrittenNull]

/-- A mapping makes no null of a scalar, and no other scalar of a null. -/
@[simp] theorem Scalar.isWrittenNull_withMapping (m : TypeMapping) (s : Scalar) :
    (s.withMapping m).isWrittenNull = s.isWrittenNull := by
  obtain ⟨node, type, _ | known, isCondition, asValue⟩ := s
  · rw [withMapping, isWrittenNull, isWrittenNull, Node.isWrittenNull_withMapping]
  · rfl

/-- A null is a null in every position. -/
@[simp] theorem Scalar.isWrittenNull_inContext (asValue : Bool) (s : Scalar) :
    (s.inContext asValue).isWrittenNull = s.isWrittenNull := by
  rw [isWrittenNull_eq, isWrittenNull_eq, inContext]

/-- The mapping of the catalog makes no null of a scalar, and no other scalar of a null. -/
@[simp] theorem Catalog.isWrittenNull_resolve (s : Scalar) :
    (catalog.resolve s).isWrittenNull = s.isWrittenNull := by
  unfold resolve
  split <;> simp

/-- A mapping from elsewhere or from the catalog makes no null of a scalar, and no other scalar of a null. -/
@[simp] theorem Catalog.isWrittenNull_resolveFrom (known : Option TypeMapping) (s : Scalar) :
    (catalog.resolveFrom known s).isWrittenNull = s.isWrittenNull := by
  unfold resolveFrom
  split <;> simp

/-- Only the node of a scalar matters. -/
theorem Scalar.IsPresent.ofNode {s s' : Scalar} (h : s.IsPresent P) (hnode : s'.node = s.node) :
    s'.IsPresent P :=
  ⟨OnReferences.ofNode h.nodes hnode, by rw [isWrittenNull_eq, hnode, ← isWrittenNull_eq, h.present]⟩

/-- A node with a mapping compares with no null when it did not before. -/
theorem Node.ComparesValues.withMapping (m : TypeMapping) {n : Node} (h : n.ComparesValues P) :
    (n.withMapping m).ComparesValues P := by
  refine ⟨?_, (asksOnly_onReferences P).withMapping m h.questions⟩
  cases n with
  | binary op left right =>
    rw [Node.withMapping]
    split
    · exact h.comparison
    · rename_i hop
      have hcomparison : (op == .equal || op == .notEqual) = false := by
        cases op with
        | equal | notEqual => exact absurd rfl hop
        | _ => rfl
      rw [comparesNull, hcomparison, Bool.false_and]
  | negate _ | case _ _ => rfl
  | _ => exact h.comparison

section AllNodes

variable {s s' : Scalar}

/-- With the mapping of the catalog a scalar compares with no null when it did not before. -/
theorem comparesValues_resolve (catalog : Catalog) (h : s.AllNodes (Node.ComparesValues P)) :
    (catalog.resolve s).AllNodes (Node.ComparesValues P) :=
  h.resolve (fun m _ hself => hself.withMapping m) catalog

/-- With a mapping from elsewhere or from the catalog a scalar compares with no null when it did not before. -/
theorem comparesValues_resolveFrom (known : Option TypeMapping) (h : s.AllNodes (Node.ComparesValues P)) :
    (catalog.resolveFrom known s).AllNodes (Node.ComparesValues P) :=
  h.resolveFrom (fun m _ hself => hself.withMapping m) catalog known

/-- A scalar that neither compares nor asks by itself compares values when the scalars in it do. -/
theorem comparesValues_of_parts (hcomparison : s.node.comparesNull = false) (hfree : s.node.isFree = true)
    (h : ∀ part ∈ s.node.parts, part.node.ComparesValues P) : s.AllNodes (Node.ComparesValues P) :=
  Scalar.all_iff.2 ⟨⟨hcomparison, (asksOnly_onReferences P).free hfree⟩, h⟩

/-- An operation compares with no null when its operands do not and, where it compares them, are none. -/
theorem comparesValues_binary (op : ScalarOp) {left right : Scalar} (type : DataType)
    (mapping : Option TypeMapping) (hl : left.AllNodes (Node.ComparesValues P))
    (hr : right.AllNodes (Node.ComparesValues P))
    (hpresent : op = .equal ∨ op = .notEqual → left.isWrittenNull = false ∧ right.isWrittenNull = false) :
    (Scalar.binary op left right type mapping).AllNodes (Node.ComparesValues P) := by
  refine comparesValues_of_parts ?_ rfl (Scalar.parts_binary (fun _ _ h => h) op type mapping hl hr)
  simp only [Scalar.binary, Scalar.natural, Node.comparesNull, Scalar.isWrittenNull_inContext]
  by_cases hop : op = .equal ∨ op = .notEqual
  · obtain ⟨hleft, hright⟩ := hpresent hop
    rw [hleft, hright, Bool.or_false, Bool.and_false]
  · have hcomparison : (op == .equal || op == .notEqual) = false := by simpa using hop
    rw [hcomparison, Bool.false_and]

/-- An operation is no null, and none is compared in it when its operands are compared only if they are no
nulls. -/
theorem Scalar.IsPresent.binary (op : ScalarOp) {left right : Scalar}
    (hl : left.AllNodes (Node.ComparesValues P)) (hr : right.AllNodes (Node.ComparesValues P))
    (hpresent : op = .equal ∨ op = .notEqual → left.isWrittenNull = false ∧ right.isWrittenNull = false) :
    (catalog.binary op left right).IsPresent P := by
  obtain ⟨known, type, mapping, hbinary, -⟩ := catalog.exists_binary op left right
  rw [hbinary]
  exact ⟨comparesValues_binary op type mapping (comparesValues_resolveFrom known hl)
    (comparesValues_resolveFrom known hr) (by simpa using hpresent), rfl⟩

/-- A negation compares with no null when its operand does not. -/
theorem comparesValues_not (h : s.AllNodes (Node.ComparesValues P)) :
    (catalog.not s).AllNodes (Node.ComparesValues P) :=
  comparesValues_of_parts rfl rfl (OnReferences.ofNode (comparesValues_resolve catalog h) rfl)

/-- To ask whether a scalar is null compares with no null when the scalar does not. -/
theorem comparesValues_isNull (negated : Bool) (h : s.AllNodes (Node.ComparesValues P)) :
    (catalog.isNull s negated).AllNodes (Node.ComparesValues P) :=
  comparesValues_of_parts rfl rfl (OnReferences.ofNode (comparesValues_resolve catalog h) rfl)

/-- A condition that is turned around compares with no null when it did not before. -/
theorem comparesValues_negated (h : s.AllNodes (Node.ComparesValues P)) :
    s.negated.AllNodes (Node.ComparesValues P) :=
  comparesValues_of_parts rfl rfl (OnReferences.ofNode h rfl)

/-- A choice between two scalars compares with no null when its condition and both of them do not. -/
theorem comparesValues_case {test ifTrue ifFalse : Scalar} (ht : test.AllNodes (Node.ComparesValues P))
    (hl : ifTrue.AllNodes (Node.ComparesValues P)) (hr : ifFalse.AllNodes (Node.ComparesValues P)) :
    (catalog.case (test, ifTrue) [] (some ifFalse)).AllNodes (Node.ComparesValues P) :=
  comparesValues_of_parts rfl rfl (Catalog.parts_case (fun _ _ h => h) (comparesValues_resolve catalog ht)
    (fun known => comparesValues_resolveFrom known hl) fun known => comparesValues_resolveFrom known hr)

/-- A call with arguments that are no nulls is no null, and none is compared in it. -/
theorem Scalar.IsPresent.function (name : String) {args : List Scalar} (type : DataType)
    (mapping : Option TypeMapping) (h : ∀ a ∈ args, a.IsPresent P) :
    (catalog.functionWith name none args type mapping).IsPresent P :=
  ⟨comparesValues_of_parts rfl rfl (Catalog.parts_functionWith (fun _ _ h => h) name type mapping
    fun a ha => comparesValues_resolve catalog (h a ha).nodes), rfl⟩

/-- A cast compares with no null when its operand does not. -/
theorem comparesValues_castTo (type : DataType) (m : TypeMapping) (h : s.AllNodes (Node.ComparesValues P)) :
    ((catalog.resolve s).castTo type m).AllNodes (Node.ComparesValues P) :=
  comparesValues_of_parts rfl rfl (OnReferences.ofNode (comparesValues_resolve catalog h) rfl)

/-- A cast is a written null when its operand is one. -/
theorem isWrittenNull_castTo (s : Scalar) (type : DataType) (m : TypeMapping) :
    ((catalog.resolve s).castTo type m).isWrittenNull = s.isWrittenNull := by
  simp [Scalar.castTo, Scalar.natural, Scalar.isWrittenNull, Node.isWrittenNull, Scalar.asValueForm]

/-- A cast of a scalar that is no null is no null. -/
theorem Scalar.IsPresent.castTo (type : DataType) (m : TypeMapping) (h : s.IsPresent P) :
    ((catalog.resolve s).castTo type m).IsPresent P :=
  ⟨comparesValues_castTo type m h.nodes, by rw [isWrittenNull_castTo, h.present]⟩

end AllNodes

end Sql

/-- Scalars that are no nulls are put together to such scalars. -/
theorem isPresent_composed (catalog : Catalog) (P : Select → Prop) :
    Composed catalog (Scalar.IsPresent P) fun _ => True where
  text _ := ⟨comparesValues_of_parts rfl rfl nofun, rfl⟩
  fragment _ _ := ⟨comparesValues_of_parts rfl rfl nofun, rfl⟩
  int _ := ⟨comparesValues_of_parts rfl rfl nofun, rfl⟩
  withMapping {_ m} _ h := ⟨Scalar.All.withMapping (fun _ hself => hself.withMapping m) _ h.nodes,
    by rw [Scalar.isWrittenNull_withMapping, h.present]⟩
  resolve h := ⟨comparesValues_resolve catalog h.nodes, by rw [Catalog.isWrittenNull_resolve, h.present]⟩
  retype _ h := h.ofNode rfl
  binary op _ _ hl hr := .binary op hl.nodes hr.nodes fun _ => ⟨hl.present, hr.present⟩
  not h := ⟨comparesValues_not h.nodes, rfl⟩
  isNull negated h := ⟨comparesValues_isNull negated h.nodes, rfl⟩
  negated h := ⟨comparesValues_negated h.nodes, rfl⟩
  case ht hl hr := ⟨comparesValues_case ht.nodes hl.nodes hr.nodes, rfl⟩
  function _ type _ h := .function _ type _ h
  search _ h := (Scalar.IsPresent.function _ .bool catalog.boolMapping? h).ofNode rfl
  like hs _ hp _ he := ⟨comparesValues_of_parts rfl rfl (Catalog.parts_like
      (fun known => comparesValues_resolveFrom known hs.nodes)
      (fun known => comparesValues_resolveFrom known hp.nodes)
      fun e hescape known => comparesValues_resolveFrom known (he e hescape).1.nodes), rfl⟩
  castTo _ h := h.castTo _ _
  withoutCast {s} h := by
    unfold Scalar.withoutCast
    split
    · rename_i operand hnode
      have hparts := (Scalar.all_iff.1 h.nodes).2
      have hpresent := h.present
      rw [hnode] at hparts
      rw [Scalar.isWrittenNull_eq, hnode, Node.isWrittenNull] at hpresent
      exact ⟨hparts, hpresent⟩
    · exact h
  matchable_text _ := trivial
  matchable_add _ _ := trivial
  matchable_withMapping _ _ := trivial
  matchable_resolve _ := trivial

end Scalars

/-- Only `==` and `!=` become comparisons for being the same or different. -/
theorem Sql.ScalarOp.eq_or_ne_of_comparison {op : BinaryOp} {scalarOp : ScalarOp}
    (h : ScalarOp.ofBinaryOp? op = some scalarOp) (hop : scalarOp = .equal ∨ scalarOp = .notEqual) :
    op = .eq ∨ op = .ne := by
  cases op with
  | eq => exact .inl rfl
  | ne => exact .inr rfl
  | _ => rcases hop with rfl | rfl <;> cases h

section Bodies

variable {scope : Scope} {P : Select → Prop}
  (hf : scope.functions.KeepFor scope.catalog (Scalar.IsPresent P) fun _ => True)
  (hd : ∀ s ∈ scope.draft.shape.scalars, s.IsPresent P)
include hf hd

/-- A scalar is no null unless the body that it comes from leads to one, and compares none. -/
def Sql.Scalar.NullOnlyFrom (P : Select → Prop) (e : Expr) (s : Scalar) : Prop :=
  s.AllNodes (Node.ComparesValues P) ∧ ∀ inside, e.leadsToNull inside [] = false → s.isWrittenNull = false

omit hf hd in
/-- A scalar that is no null fits every body. -/
theorem Sql.Scalar.IsPresent.nullOnlyFrom {s : Scalar} (h : s.IsPresent P) (e : Expr) : s.NullOnlyFrom P e :=
  ⟨h.nodes, fun _ _ => h.present⟩

/-- The rules bring in no null by themselves. -/
theorem Lowered.rules_comparesValues : Lowered.Rules scope Expr.spellsNull (Scalar.NullOnlyFrom P) where
  constant {value} _ := by
    refine ⟨comparesValues_of_parts rfl rfl nofun, fun inside hnull => ?_⟩
    rwa [Expr.leadsToNull_constant] at hnull
  null _ := by
    refine ⟨comparesValues_of_parts rfl rfl nofun, fun inside hnull => ?_⟩
    rwa [Expr.leadsToNull_constant] at hnull
  parameter {name type} _ :=
    have h : (Scalar.parameter name type).IsPresent P := ⟨comparesValues_of_parts rfl rfl nofun, rfl⟩
    h.nullOnlyFrom _
  draft e _ h := (hd _ h).nullOnlyFrom e
  shapeMember hr hm h :=
    ⟨h.1, fun inside hnull => h.2 inside (by rwa [Expr.leadsToNull_member hr hm] at hnull)⟩
  member {receiver name value s p} hp hspells hr h := by
    refine ((hf p hp).member (fun v hv => ?_) h).nullOnlyFrom _
    obtain ⟨e, he, hnodes, hpresent⟩ := hr v hv
    rw [Option.mem_def.1 he] at hspells
    exact ⟨hnodes, hpresent false (by simpa [Expr.spellsNull] using hspells)⟩
  isNull h := ⟨comparesValues_isNull _ h.1, fun _ _ => rfl⟩
  binary {op scalarOp left right l r} hspells hnull hop hl hr := by
    refine Scalar.IsPresent.nullOnlyFrom (.binary scalarOp hl.1 hr.1 fun hcomparison => ?_) _
    have hsource := ScalarOp.eq_or_ne_of_comparison hop hcomparison
    -- not exactly one operand is the literal itself, so neither may lead to a null
    have hop : (op == .eq || op == .ne) = true := by simpa using hsource
    have hliteral : (left.isNull != right.isNull) = false := by
      simpa using fun h => hnull ⟨hsource, h⟩
    simp only [Expr.spellsNull, hop, hliteral, Bool.not_true, Bool.false_or, Bool.not_eq_true',
      Bool.or_eq_false_iff] at hspells
    exact ⟨hl.2 false hspells.1, hr.2 false hspells.2⟩
  not h := ⟨comparesValues_not h.1, fun _ _ => rfl⟩
  negate h := ⟨comparesValues_negated h.1, fun _ _ => rfl⟩
  method {receiver name args value ss s p} hp hspells hr hargs h := by
    simp only [Expr.spellsNull, Bool.and_eq_true] at hspells
    refine ((hf p hp).method (fun v hv => ?_) (fun _ _ _ => trivial) (fun a ha => ?_) h).nullOnlyFrom _
    · obtain ⟨e, he, hnodes, hpresent⟩ := hr v hv
      rw [Option.mem_def.1 he] at hspells
      exact ⟨hnodes, hpresent false (by simpa using hspells.1)⟩
    · obtain ⟨e, he, hnodes, hpresent⟩ := hargs a ha
      exact ⟨hnodes, hpresent false (by simpa using List.all_eq_true.1 hspells.2 e he)⟩
  conditional ht hl hr := ⟨comparesValues_case ht.1 hl.1 hr.1, fun _ _ => rfl⟩
  convert {operand type value s} _ ho h := by
    unfold convertScalar at h
    split at h
    · cases h
      refine ⟨OnReferences.ofNode ho.1 rfl, fun inside hnull => ?_⟩
      rw [Expr.leadsToNull_convert] at hnull
      exact (Scalar.isWrittenNull_eq _).symm.trans (ho.2 inside hnull)
    · obtain ⟨m, -, rfl⟩ := Option.map_eq_some_iff.1 h
      refine ⟨comparesValues_castTo _ m ho.1, fun inside hnull => ?_⟩
      rw [Expr.leadsToNull_convert] at hnull
      rw [isWrittenNull_castTo, ho.2 inside hnull]

/-- A body that leads to no null becomes a scalar that is no null. -/
theorem Lowered.isPresent {inside : Bool} {e : Expr} {s : Scalar} (h : Lowered scope e s)
    (hnull : e.leadsToNull inside [] = false) (he : e.everywhere Expr.spellsNull = true) : s.IsPresent P := by
  obtain ⟨hnodes, hpresent⟩ := h.ofRules (rules_comparesValues hf hd) he
  exact ⟨hnodes, hpresent inside hnull⟩

/-- A body that leads to no null and compares none becomes a scalar that is no null. -/
theorem isPresent_lowerIn {inside : Bool} {e : Expr} (hnull : e.leadsToNull inside [] = false)
    (he : e.everywhere Expr.spellsNull = true) {asValue : Bool} {s : Scalar}
    (hs : scope.lowerIn e asValue = .ok (some s)) : s.IsPresent P := by
  obtain ⟨s', hs', rfl⟩ := Scope.lowerIn_eq_some hs
  exact ((isPresent_composed scope.catalog P).resolve (hs'.isPresent hf hd hnull he)).ofNode rfl

/-- The leaves of a selector without a null become scalars that are no nulls. -/
theorem Bound.isPresent {e shaper : Expr} {path : MemberPath} {shape : Shape}
    (h : Bound scope e path shaper shape) (hnull : e.leadsToNull true [] = false)
    (he : e.everywhere Expr.spellsNull = true) : ∀ s ∈ shape.scalars, s.IsPresent P := by
  induction h with
  | leaf _ _ h =>
    rw [← Expr.leadsToNull_reduceMembers] at hnull
    have hs := isPresent_lowerIn hf hd hnull (Expr.everywhere_reduceMembers he) h
    simpa [Shape.scalars, Projected.scalars] using hs
  | entity _ h =>
    intro s hs
    exact hd s (mem_scalars_of_lookup h (by simpa [Shape.scalars] using hs))
  | shapeNil _ => exact List.forall_mem_nil _
  | shapeCons hreduced _ _ ihm ihrest =>
    rw [← Expr.leadsToNull_reduceMembers, hreduced, Expr.leadsToNull_shape, anyLeadsToNull, Bool.true_and,
      Bool.or_eq_false_iff] at hnull
    have he := Expr.everywhere_reduceMembers he
    rw [hreduced] at he
    simp only [Expr.everywhere, everywhereMembers, Bool.and_eq_true] at he
    rw [Shape.scalars, List.flatMap_append]
    refine List.forall_mem_append.2 ⟨ihm hnull.1 he.2.1, ihrest ?_ ?_⟩
    · rw [Expr.leadsToNull_shape, hnull.2, Bool.and_false]
    · rw [Expr.everywhere, he.2.2]
      rfl

end Bodies

namespace Environment

variable {env : Environment} {P : Select → Prop}

/-- A select of scalars that are no nulls compares with none. -/
theorem comparesValues_of_isPresent {s : Select} (h : ∀ whole ∈ s.scalars, whole.IsPresent P) :
    s.ComparesValues := fun whole hwhole part hpart => ((h whole hwhole).nodes part hpart).comparison

/-- Operators make scalars that are no nulls of such scalars, in selects at any depth. -/
theorem nests_comparesValues
    (hf : env.functions.KeepFor env.catalog (Scalar.IsPresent Select.ComparesValues) fun _ => True) :
    env.Nests (·.hidesNoNull = true) (·.shaper.everywhere Expr.isShaperForm = true)
      (Scalar.IsPresent Select.ComparesValues) Select.ComparesValues where
  start _ := rfl
  property _ _ _ := ⟨Scalar.all_of_leaf ⟨rfl, nofun⟩ rfl, rfl⟩
  step h hstep := hstep.shaper_forms h
  nested h hpart hnode := (h.nodes _ hpart).questions _ _ hnode
  inContext _ h := h.ofNode rfl
  conjunction hl hr := ⟨comparesValues_binary .and _ _ hl.nodes hr.nodes nofun, rfl⟩
  not := (isPresent_composed env.catalog _).not
  int := (isPresent_composed env.catalog _).int
  column _ _ := ⟨Scalar.all_of_leaf ⟨rfl, nofun⟩ rfl, rfl⟩
  rowTotal _ type := .function _ type _
    (List.forall_mem_singleton.2 ⟨comparesValues_of_parts rfl rfl nofun, rfl⟩)
  aggregate hcompute hinput h := (isPresent_composed env.catalog _).aggregate hcompute
    ((isPresent_composed env.catalog _).resolve hinput) h
  existence negated h := ⟨Scalar.all_of_leaf ⟨rfl, by rintro inner negated ⟨⟩; exact h⟩ rfl, rfl⟩
  body hq hd hbody hs := by
    have hinlined := Expr.hidesNoNull_inline hbody hq
    simp only [Expr.hidesNoNull, Bool.and_eq_true, Bool.not_eq_true'] at hinlined
    exact isPresent_lowerIn hf hd hinlined.1 hinlined.2 hs
  selector hq hd hbody hbound := by
    have hinlined := Expr.hidesNoNull_inline hbody hq
    simp only [Expr.hidesNoNull, Bool.and_eq_true, Bool.not_eq_true'] at hinlined
    exact (Scope.bind_bound _ _ _ _ hbound).isPresent hf hd hinlined.1 hinlined.2
  count _ hd he hs := by
    simp only [Expr.hidesNoNull, Bool.and_eq_true, Bool.not_eq_true'] at he
    exact isPresent_lowerIn hf hd he.1 he.2 hs
  subquery _ hd := comparesValues_of_isPresent (Draft.subquery_keeps (fun _ h => h.ofNode rfl) hd)
  question _ hd := comparesValues_of_isPresent (Draft.finish_keeps (fun _ h => h.ofNode rfl) hd)

end Environment

/-- A comparison in which exactly one operand is the literal null asks whether the other one is null. -/
theorem Scope.lower_comparison_of_null (scope : Scope) {op : BinaryOp} (hop : op = .eq ∨ op = .ne)
    {operand : Expr} (hoperand : operand.isNull = false) :
    (scope.lower (.binary op operand (.constant .null)) = do
      return (← scope.lower operand).map (scope.catalog.isNull · (op = .ne))) ∧
    scope.lower (.binary op (.constant .null) operand) = do
      return (← scope.lower operand).map (scope.catalog.isNull · (op = .ne)) := by
  have hnull : (Expr.constant .null).isNull = true := rfl
  constructor
  · rw [lower, hoperand, hnull, if_pos ⟨hop, rfl⟩, if_pos rfl]
  · rw [lower, hoperand, hnull, if_pos ⟨hop, rfl⟩, if_neg Bool.false_ne_true]

/-- In pipelines whose bodies hide no null, no comparison for being the same or different has a null that is
written out for an operand, in all selects of a statement at any depth. A comparison with the literal asks
whether the other operand is null. Functions must not bring in such comparisons by themselves. -/
theorem comparisons_have_no_null (env : Environment)
    (hf : env.functions.KeepFor env.catalog (Scalar.IsPresent Select.ComparesValues) fun _ => True)
    (query : Query) (hbodies : ∀ e ∈ query.bodies, e.hidesNoNull = true) (shaped : ShapedQuery)
    (h : env.lower query = .ok shaped) :
    (∀ s : Select, s.Within shaped.select → ∀ whole ∈ s.scalars, ∀ part ∈ whole.parts,
      ∀ op left right, part.node = .binary op left right → op = .equal ∨ op = .notEqual →
        left.isWrittenNull = false ∧ right.isWrittenNull = false) ∧
    ∀ (q : ShapedDraft) (op : BinaryOp) (operand : Expr), op = .eq ∨ op = .ne → operand.isNull = false →
      ((env.scope q).lower (.binary op operand (.constant .null)) = do
        return (← (env.scope q).lower operand).map (env.catalog.isNull · (op = .ne))) ∧
      (env.scope q).lower (.binary op (.constant .null) operand) = do
        return (← (env.scope q).lower operand).map (env.catalog.isNull · (op = .ne)) := by
  refine ⟨?_, fun q op operand hop hoperand => (env.scope q).lower_comparison_of_null hop hoperand⟩
  have hnests := Environment.nests_comparesValues hf
  obtain ⟨q, -, hcarries, rfl⟩ := hnests.lower h hbodies
  have hselects : ∀ s : Select, s.Within q.finish.select → s.ComparesValues := by
    intro s hs
    rcases Select.within_iff.1 hs with rfl | hs
    · exact Environment.comparesValues_of_isPresent (Draft.finish_keeps hnests.inContext hcarries.scalars)
    · exact hcarries.finish hnests s hs
  intro s hs whole hwhole part hpart op left right hnode hop
  have hcomparison := hselects s hs whole hwhole part hpart
  have hsame : (op == .equal || op == .notEqual) = true := by simpa using hop
  rw [hnode, Node.comparesNull, hsame, Bool.true_and, Bool.or_eq_false_iff] at hcomparison
  exact hcomparison

/-- The operands of a node that asks whether two values are the same. -/
def Sql.Node.equated? : Node → Option (Scalar × Scalar)
  | .binary .equal left right => some (left, right)
  | _ => none

/-- The node asks whether two values are the same just when it has the operands of such a comparison. -/
theorem Sql.Node.equated?_eq_some {n : Node} {operands : Scalar × Scalar} (h : n.equated? = some operands) :
    n = .binary .equal operands.1 operands.2 := by
  unfold equated? at h
  split at h
  · cases h
    rfl
  · cases h

/-- The named ones among the last three persons, of these the ones with name 40: only the number is compared,
and whether there is a name is asked by `IS NOT NULL`. -/
theorem namedForty_compares_no_null :
    ∃ shaped, (Compiler.new .persons .standard).environment.lower
        (Query.lastNamed.andThen (.filter .isNamedForty)) = .ok shaped ∧
      (∀ e ∈ (Query.lastNamed.andThen (.filter .isNamedForty)).bodies, e.hidesNoNull = true) ∧
      ∃ predicate ∈ shaped.select.predicate, ∃ left right, predicate.node = .binary .equal left right ∧
        left.isWrittenNull = false ∧ right.isWrittenNull = false := by
  have hbodies : ∀ e ∈ (Query.lastNamed.andThen (.filter .isNamedForty)).bodies, e.hidesNoNull = true := by
    decide +kernel
  obtain ⟨shaped, h, hcheck⟩ : ∃ shaped, (Compiler.new .persons .standard).environment.lower
      (Query.lastNamed.andThen (.filter .isNamedForty)) = .ok shaped ∧
        (shaped.select.predicate.any (·.node.equated?.isSome)) = true := exists_of_any (by decide +kernel)
  obtain ⟨predicate, hpredicate, hcheck⟩ := (Option.any_eq_true _ _).1 hcheck
  obtain ⟨operands, hoperands⟩ := Option.isSome_iff_exists.1 hcheck
  have hnode := Node.equated?_eq_some hoperands
  obtain ⟨hcomparisons, -⟩ := comparisons_have_no_null (Compiler.new .persons .standard).environment
    ((isPresent_composed _ _).ofDialect_keep _) _ hbodies shaped h
  have hwhole : predicate ∈ shaped.select.scalars := by simp [Select.scalars, Option.mem_def.1 hpredicate]
  have hself : predicate ∈ predicate.parts := by simp [predicate.parts_eq]
  exact ⟨shaped, h, hbodies, predicate, hpredicate, operands.1, operands.2, hnode,
    hcomparisons _ .refl predicate hwhole predicate hself _ _ _ hnode (.inl rfl)⟩

/-- Persons whose name is a null that was converted to a text. -/
def Query.namedConvertedNull : Query :=
  ⟨"Person", [.filter ⟨"p", .binary .eq (.access (.param "p") "name")
    (.convert (.constant .null) (.optional .text))⟩]⟩

/-- A conversion hides a null, so the name is compared with it. -/
theorem namedConvertedNull_compares_null :
    ∃ shaped, (Compiler.new .persons .standard).environment.lower .namedConvertedNull = .ok shaped ∧
      ∃ predicate ∈ shaped.select.predicate, ∃ left right, predicate.node = .binary .equal left right ∧
        right.isNullConstant = true := by
  obtain ⟨shaped, h, hcheck⟩ : ∃ shaped,
      (Compiler.new .persons .standard).environment.lower .namedConvertedNull = .ok shaped ∧
        (shaped.select.predicate.any fun predicate => predicate.node.equated?.any (·.2.isNullConstant)) = true :=
    exists_of_any (by decide +kernel)
  obtain ⟨predicate, hpredicate, hcheck⟩ := (Option.any_eq_true _ _).1 hcheck
  obtain ⟨operands, hoperands, hnull⟩ := (Option.any_eq_true _ _).1 hcheck
  exact ⟨shaped, h, predicate, hpredicate, _, _, Node.equated?_eq_some hoperands, hnull⟩

end QueryPipeline
