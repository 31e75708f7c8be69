import QueryPipeline.Proofs.Nesting
import QueryPipeline.Proofs.Words

/-!
# Scalars that are written plainly

A scalar is plain when its parameters and functions have plain names, its decimals are numerals and its values
are stored as the dialect stores them. The columns of a model without store types of its own are plain, and so
is all that pipelines with plain leaves become. `Composed` says how scalars are put together, `Nests` where
selects come to stand in others.
-/

set_option autoImplicit false

namespace QueryPipeline

open Sql

namespace Sql

/-- What a node writes as it is can be read, and all selects that it asks about have a property. -/
def Node.IsPlain (P : Select → Prop) : Node → Prop
  | .constant value => value.isPlain = true
  | .parameter name => isPlainWord name = true
  | .function name schema receiver _ => isPlainWord name = true ∧ schema = none ∧ receiver = none
  | .fragment sql => sql = "*" ∨ IsTerm sql
  | .existsIn inner _ => ∀ s : Select, s.Within inner → P s
  | _ => True

/-- A node is plain, and its value is stored as a catalog says. -/
structure Scalar.IsPlain (catalog : Catalog) (P : Select → Prop) (s : Scalar) : Prop where
  node : s.node.IsPlain P
  mapping : ∀ m ∈ s.mapping, ∃ kind, catalog.mapping? kind = some m

/-- All scalars in a scalar are plain. -/
abbrev Scalar.AllPlain (catalog : Catalog) (P : Select → Prop) (s : Scalar) : Prop :=
  s.All (Scalar.IsPlain catalog P)

/-- All scalars of a select are plain. -/
def Select.IsPlain (catalog : Catalog) (s : Select) : Prop :=
  ∀ whole ∈ s.scalars, whole.AllPlain catalog fun _ => True

section Composition

variable {catalog : Catalog} {P : Select → Prop} {s s' : Scalar}

/-- A plain node with a mapping is plain. -/
theorem Node.IsPlain.withMapping (m : TypeMapping) {n : Node} (h : n.IsPlain P) :
    (n.withMapping m).IsPlain P := by
  cases n with
  | binary op left right =>
    rw [Node.withMapping]
    split <;> trivial
  | negate _ | case _ _ => trivial
  | _ => exact h

/-- A plain node is plain, too, when nothing is asked of the selects in it. -/
theorem Node.IsPlain.weaken {n : Node} (h : n.IsPlain P) : n.IsPlain fun _ => True := by
  cases n with
  | existsIn _ _ => exact fun _ _ => trivial
  | constant _ | parameter _ | fragment _ | function _ _ _ _ => exact h
  | _ => trivial

/-- A plain scalar is plain, too, when nothing is asked of the selects in it. -/
theorem Scalar.AllPlain.weaken (h : s.AllPlain catalog P) : s.AllPlain catalog fun _ => True :=
  fun part hpart => ⟨(h part hpart).node.weaken, (h part hpart).mapping⟩

/-- A scalar with the node and the mapping of another one is as plain. -/
theorem Scalar.AllPlain.ofSame (h : s.AllPlain catalog P) (hnode : s'.node = s.node)
    (hmapping : s'.mapping = s.mapping) : s'.AllPlain catalog P := by
  refine Scalar.All.ofNode h hnode ⟨?_, ?_⟩
  · rw [hnode]
    exact h.self.node
  · rw [hmapping]
    exact h.self.mapping

/-- A plain scalar is plain in every position. -/
theorem Scalar.IsPlain.inContext (s : Scalar) (asValue : Bool) (h : s.IsPlain catalog P) :
    (s.inContext asValue).IsPlain catalog P := ⟨h.node, h.mapping⟩

/-- A mapping that is supplied by plain scalars is one of the catalog. -/
theorem exists_kind_of_supplies {m : TypeMapping} (hm : catalog.Supplies (Scalar.AllPlain catalog P) m) :
    ∃ kind, catalog.mapping? kind = some m := by
  cases hm with
  | kind h => exact ⟨_, h⟩
  | scalar hs h => exact hs.self.mapping m h

/-- A plain scalar is plain with every mapping of the catalog. -/
theorem Scalar.AllPlain.withMapping {m : TypeMapping} (hm : ∃ kind, catalog.mapping? kind = some m)
    (h : s.AllPlain catalog P) : (s.withMapping m).AllPlain catalog P := by
  refine Scalar.All.withMapping (fun s hs => ⟨hs.node.withMapping m, ?_⟩) s h
  rintro _ ⟨⟩
  exact hm

/-- A plain scalar is plain with the mapping that the catalog has for it. -/
theorem Scalar.AllPlain.resolve (h : s.AllPlain catalog P) : (catalog.resolve s).AllPlain catalog P := by
  unfold Catalog.resolve
  split
  · rename_i hm
    exact h.withMapping ⟨_, hm⟩
  · exact h

/-- A plain scalar is plain with a mapping from another plain one or from the catalog. -/
theorem Scalar.AllPlain.resolveFrom {known : Option TypeMapping}
    (hknown : ∀ m ∈ known, ∃ kind, catalog.mapping? kind = some m) (h : s.AllPlain catalog P) :
    (catalog.resolveFrom known s).AllPlain catalog P := by
  unfold Catalog.resolveFrom
  split
  · exact h.withMapping (hknown _ rfl)
  · exact h.resolve

/-- The mapping that plain scalars have is one of the catalog. -/
theorem exists_kind_of_known {ss : List Scalar} (h : ∀ s ∈ ss, s.AllPlain catalog P) :
    ∀ m ∈ knownMapping? ss, ∃ kind, catalog.mapping? kind = some m :=
  fun m hm => exists_kind_of_supplies (Composed.supplies_known h m hm)

/-- An operation on plain scalars is plain. -/
theorem allPlain_binary (op : ScalarOp) {left right : Scalar} (hl : left.AllPlain catalog P)
    (hr : right.AllPlain catalog P) : (catalog.binary op left right).AllPlain catalog P := by
  have hoperation : ∀ {l r : Scalar} (type : DataType) {mapping : Option TypeMapping},
      l.AllPlain catalog P → r.AllPlain catalog P →
      (∀ m ∈ mapping, ∃ kind, catalog.mapping? kind = some m) →
      (Scalar.binary op l r type mapping).AllPlain catalog P := fun type _ hl hr hm =>
    Scalar.all_iff.2 ⟨⟨trivial, hm⟩, Scalar.parts_binary Scalar.IsPlain.inContext op type _ hl hr⟩
  have hknown : ∀ m ∈ knownMapping? [left, right], ∃ kind, catalog.mapping? kind = some m :=
    exists_kind_of_known (List.forall_mem_cons.2 ⟨hl, List.forall_mem_singleton.2 hr⟩)
  have hl' := hl.resolveFrom hknown
  have hr' := hr.resolveFrom hknown
  unfold Catalog.binary
  split
  · exact hoperation _ hl.resolve hr.resolve fun _ hm => ⟨_, hm⟩
  · dsimp only
    split
    · exact hoperation _ hl' hr' fun _ hm => ⟨_, hm⟩
    · exact hoperation _ hl' hr' hl'.self.mapping

/-- A `CASE` of plain scalars is plain. -/
theorem allPlain_case {test ifTrue ifFalse : Scalar} (ht : test.AllPlain catalog P)
    (hl : ifTrue.AllPlain catalog P) (hr : ifFalse.AllPlain catalog P) :
    (catalog.case (test, ifTrue) [] (some ifFalse)).AllPlain catalog P := by
  have hknown : ∀ m ∈ knownMapping? [ifTrue, ifFalse], ∃ kind, catalog.mapping? kind = some m :=
    exists_kind_of_known (List.forall_mem_cons.2 ⟨hl, List.forall_mem_singleton.2 hr⟩)
  refine Scalar.all_iff.2 ⟨⟨trivial, hknown⟩, ?_⟩
  simp only [Catalog.case, Scalar.natural, Node.parts, branchParts, optionParts, List.map_cons,
    List.map_nil, Option.map_some, List.append_nil, List.forall_mem_append]
  exact ⟨⟨ht.resolve.ofSame rfl rfl, (hl.resolveFrom hknown).ofSame rfl rfl⟩,
    (hr.resolveFrom hknown).ofSame rfl rfl⟩

/-- A function with a plain name of plain scalars is plain. -/
theorem allPlain_function {name : String} (hname : isPlainWord name = true) {args : List Scalar}
    (type : DataType) {mapping : Option TypeMapping}
    (hm : ∀ m ∈ mapping, ∃ kind, catalog.mapping? kind = some m) (h : ∀ a ∈ args, a.AllPlain catalog P) :
    (catalog.functionWith name none args type mapping).AllPlain catalog P :=
  Scalar.all_iff.2 ⟨⟨⟨hname, rfl, rfl⟩, hm⟩, Catalog.parts_functionWith Scalar.IsPlain.inContext name type
    mapping fun a ha => (h a ha).resolve⟩

/-- A match of plain scalars is plain. -/
theorem allPlain_like {subject pattern : Scalar} {escape : Option Scalar}
    (hs : subject.AllPlain catalog P) (hp : pattern.AllPlain catalog P)
    (he : ∀ e ∈ escape, e.AllPlain catalog P) :
    (catalog.like subject pattern escape).AllPlain catalog P := by
  have hknown : ∀ m ∈ knownMapping? (subject :: pattern :: escape.toList),
      ∃ kind, catalog.mapping? kind = some m := by
    refine exists_kind_of_known (List.forall_mem_cons.2 ⟨hs, List.forall_mem_cons.2 ⟨hp, ?_⟩⟩)
    exact fun e hescape => he e (Option.mem_toList.1 hescape)
  refine Scalar.all_iff.2 ⟨⟨trivial, fun _ hm => ⟨_, hm⟩⟩, ?_⟩
  simp only [Catalog.like, Catalog.condition, Scalar.natural, Node.parts, List.forall_mem_append]
  refine ⟨⟨hs.resolveFrom hknown, hp.resolveFrom hknown⟩, ?_⟩
  intro part hpart
  obtain ⟨whole, hwhole, hpart⟩ := mem_optionParts.1 hpart
  obtain ⟨e, hescape, rfl⟩ := Option.map_eq_some_iff.1 hwhole
  exact (he e hescape).resolveFrom hknown part hpart

/-- The names of the functions for full-text search are plain words. -/
theorem isPlainWord_of_isSearch {name : String} (h : isSearch name = true) : isPlainWord name = true := by
  have hplain : ∀ name ∈ fullTextPredicates.map Prod.snd, isPlainWord name = true := by decide
  exact hplain name (List.contains_iff_mem.1 h)

/-- Plain scalars are put together to plain scalars. -/
theorem allPlain_composed (catalog : Catalog) (P : Select → Prop) :
    Composed catalog (Scalar.AllPlain catalog P) fun _ => True where
  text _ := Scalar.all_of_leaf ⟨rfl, nofun⟩ rfl
  fragment hsql _ := Scalar.all_of_leaf ⟨.inr hsql, nofun⟩ rfl
  int _ := Scalar.all_of_leaf ⟨rfl, fun _ hm => ⟨_, hm⟩⟩ rfl
  withMapping hm h := h.withMapping (exists_kind_of_supplies hm)
  resolve h := h.resolve
  retype _ h := h.ofSame rfl rfl
  binary op _ _ hl hr := allPlain_binary op hl hr
  not h := Scalar.all_iff.2 ⟨⟨trivial, fun _ hm => ⟨_, hm⟩⟩, h.resolve.ofSame rfl rfl⟩
  isNull _ h := Scalar.all_iff.2 ⟨⟨trivial, fun _ hm => ⟨_, hm⟩⟩, h.resolve.ofSame rfl rfl⟩
  negated h := Scalar.all_iff.2 ⟨⟨trivial, h.self.mapping⟩, h.ofSame rfl rfl⟩
  case ht hl hr := allPlain_case ht hl hr
  function hname type hm h := by
    simp only [isFunctionName, Bool.and_eq_true] at hname
    exact allPlain_function hname.1 type (fun m hmem => exists_kind_of_supplies (hm m hmem)) h
  search hname h :=
    (allPlain_function (isPlainWord_of_isSearch hname) .bool (fun _ hm => ⟨_, hm⟩) h).ofSame rfl rfl
  like hs _ hp _ he := allPlain_like hs hp fun e hescape => (he e hescape).1
  castTo hm h := by
    refine Scalar.all_iff.2 ⟨⟨trivial, ?_⟩, h.resolve.ofSame rfl rfl⟩
    rintro _ ⟨⟩
    exact ⟨_, hm⟩
  withoutCast {s} h := by
    unfold Scalar.withoutCast
    split
    · rename_i operand hnode
      have hparts := (Scalar.all_iff.1 h).2
      rw [hnode] at hparts
      exact hparts
    · exact h
  matchable_text _ := trivial
  matchable_add _ _ := trivial
  matchable_withMapping _ _ := trivial
  matchable_resolve _ := trivial

end Composition

end Sql

/-- All properties of a model are stored as the dialect stores values of their kind. -/
def Model.isUsual (model : Model) : Bool :=
  model.entities.all fun entity => entity.properties.all (·.storeType.isNone)

/-- A parameter has a plain name, and a decimal number the digits of a numeral. -/
def Expr.isPlainLeaf : Expr → Bool
  | .constant value => value.isPlain
  | .parameter name _ => isPlainWord name
  | _ => true

/-- In a usual model no property has a store type. -/
theorem Model.storeType_eq_none {model : Model} (h : model.isUsual = true) {source : String}
    {entity : EntityType} (hentity : model.findEntity? source = some entity) {property : Property}
    (hproperty : property ∈ entity.properties) : property.storeType = none := by
  have hall := List.all_eq_true.1 h entity (List.mem_of_find?_eq_some hentity)
  exact Option.isNone_iff_eq_none.1 (List.all_eq_true.1 hall property hproperty)

/-- A shaper contains no leaves of a statement. -/
theorem Expr.isPlainLeaf_of_shaper {e : Expr} (h : e.everywhere Expr.isShaperForm = true) :
    e.everywhere Expr.isPlainLeaf = true := by
  refine Expr.everywhere_imp (fun e he => ?_) h
  have hform := Expr.everywhere_self he
  cases e with
  | constant _ | parameter _ _ => cases hform
  | _ => rfl

/-- The leaves of a body are plain, too, when a shaper takes the place of its parameter. -/
theorem Expr.isPlainLeaf_inline {f : Lambda} {argument : Expr} (hbody : f.body.everywhere Expr.isPlainLeaf = true)
    (harg : argument.everywhere Expr.isShaperForm = true) :
    (f.inline argument).everywhere Expr.isPlainLeaf = true := by
  refine Expr.everywhere_inline (fun _ e he hne => ?_) (fun _ => rfl) hbody (Expr.isPlainLeaf_of_shaper harg)
  cases e with
  | param name => exact absurd rfl (hne name)
  | constant _ | parameter _ _ => exact he
  | _ => rfl

namespace Environment

variable {env : Environment} {A : Expr → Prop} {q q' : ShapedDraft}

section Plain

variable {P : Select → Prop} (hf : env.functions.KeepFor env.catalog (Scalar.AllPlain env.catalog P) fun _ => True)
include hf

/-- A body with plain leaves becomes a plain scalar. -/
theorem allPlain_lowerIn (hd : ∀ s ∈ q.draft.shape.scalars, s.AllPlain env.catalog P) {e : Expr}
    (he : e.everywhere Expr.isPlainLeaf = true) {asValue : Bool} {s : Scalar}
    (hs : (env.scope q).lowerIn e asValue = .ok (some s)) : s.AllPlain env.catalog P := by
  have hleaves : Expr.Leaves (Scalar.AllPlain env.catalog P) (fun _ => True) Expr.isPlainLeaf :=
    ⟨fun h => Scalar.all_of_leaf ⟨h, nofun⟩ rfl, fun _ => Scalar.all_of_leaf ⟨rfl, nofun⟩ rfl,
      fun h => Scalar.all_of_leaf ⟨h, nofun⟩ rfl, fun _ _ _ => trivial⟩
  obtain ⟨s', hs', rfl⟩ := Scope.lowerIn_eq_some hs
  have hlowered : s'.AllPlain env.catalog P :=
    hs'.keepsFor (allPlain_composed env.catalog P) hf hleaves hd he
  exact hlowered.resolve.ofSame rfl rfl

omit hf in
/-- A function of all rows of a plain scalar is plain. -/
theorem allPlain_total {name : String} (hname : name ∈ rowFunctions) {args : List Scalar} (type : DataType)
    (h : ∀ a ∈ args, a.AllPlain env.catalog P) :
    (env.catalog.function name args type).AllPlain env.catalog P := by
  have hplain : ∀ name ∈ rowFunctions, isPlainWord name = true := by decide
  exact allPlain_function (hplain name hname) type (fun _ hm => ⟨_, hm⟩) h

end Plain

/-- Operators make plain scalars of plain ones, in selects at any depth. -/
theorem nests_plain (hf : env.functions.KeepFor env.catalog
      (Scalar.AllPlain env.catalog (Select.IsPlain env.catalog)) fun _ => True)
    (hmodel : env.model.isUsual = true) :
    env.Nests (·.everywhere Expr.isPlainLeaf = true) (·.shaper.everywhere Expr.isShaperForm = true)
      (Scalar.AllPlain env.catalog (Select.IsPlain env.catalog)) (Select.IsPlain env.catalog) where
  start _ := rfl
  property h property hproperty := by
    refine Scalar.all_of_leaf ⟨trivial, fun m hm => ?_⟩ rfl
    simp only [propertyColumn, Model.storeType_eq_none hmodel h hproperty] at hm
    exact ⟨_, hm⟩
  step h hstep := hstep.shaper_forms h
  nested h hpart hnode := by
    have hplain := (h _ hpart).node
    rw [hnode] at hplain
    exact hplain
  inContext _ h := h.ofSame rfl rfl
  conjunction hl hr := by
    refine Scalar.all_iff.2 ⟨⟨trivial, fun m hm => ?_⟩,
      Scalar.parts_binary Scalar.IsPlain.inContext _ _ _ hl hr⟩
    simp only [Scalar.conjunction, Scalar.binary, Scalar.natural, Option.orElse_eq_orElse,
      Option.orElse_eq_or, Option.mem_def, Option.or_eq_some_iff] at hm
    rcases hm with hm | ⟨-, hm⟩
    · exact hl.self.mapping m hm
    · exact hr.self.mapping m hm
  not := (allPlain_composed env.catalog _).not
  int := (allPlain_composed env.catalog _).int
  column h _ := Scalar.all_of_leaf ⟨trivial, h.self.mapping⟩ rfl
  rowTotal hname type :=
    allPlain_total hname type (List.forall_mem_singleton.2 (Scalar.all_of_leaf ⟨.inl rfl, nofun⟩ rfl))
  aggregate hcompute hinput h := (allPlain_composed env.catalog _).aggregate hcompute hinput.resolve h
  existence _ h := Scalar.all_of_leaf ⟨h, fun _ hm => ⟨_, hm⟩⟩ rfl
  body hq hd hbody hs := allPlain_lowerIn hf hd (Expr.isPlainLeaf_inline hbody hq) hs
  selector hq hd hbody hbound := (Scope.bind_bound _ _ _ _ hbound).keeps (fun _ => rfl)
    (fun _ _ he hs => allPlain_lowerIn hf hd he hs) hd (Expr.isPlainLeaf_inline hbody hq)
  count _ hd he hs := allPlain_lowerIn hf hd he hs
  subquery _ hd := fun s hs => (Draft.subquery_keeps (fun _ h => h.ofSame rfl rfl) hd s hs).weaken
  question _ hd := fun s hs => (Draft.finish_keeps (fun _ h => h.ofSame rfl rfl) hd s hs).weaken

/-- All scalars of the statement of an accepted pipeline are plain, in selects at any depth. -/
theorem lower_plain (hf : env.functions.KeepFor env.catalog
      (Scalar.AllPlain env.catalog (Select.IsPlain env.catalog)) fun _ => True)
    (hmodel : env.model.isUsual = true) {query : Query}
    (hbodies : ∀ e ∈ query.bodies, e.everywhere Expr.isPlainLeaf = true) {shaped : ShapedQuery}
    (h : env.lower query = .ok shaped) : ∀ s : Select, s.Within shaped.select → s.IsPlain env.catalog := by
  have hnests := nests_plain hf hmodel
  obtain ⟨q, -, hcarries, rfl⟩ := hnests.lower h hbodies
  intro s hs
  rcases Select.within_iff.1 hs with rfl | hs
  · exact fun s hs => (Draft.finish_keeps hnests.inContext hcarries.scalars s hs).weaken
  · exact hcarries.finish hnests s hs

end Environment

end QueryPipeline
