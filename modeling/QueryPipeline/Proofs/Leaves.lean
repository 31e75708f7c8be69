import QueryPipeline.Proofs.Materialization

/-!
# Leaves of selectors

A selector becomes a shaper with a placeholder for each of its leaves, and a shape that says what every
path leads to. The placeholder of a leaf finds what this leaf stands for, and no other one, as long as no
shape of the shaper has two members of the same name: then no two paths are the same. Nothing else keeps
the leaves apart. Of two members with one name both read what the first one stands for.
-/

set_option autoImplicit false

namespace QueryPipeline

open Sql

/-- The leaf of a selector that positions of members lead to, outermost first. -/
def Expr.leafAt? (e : Expr) : List Nat → Option Expr
  | [] =>
    match e.reduceMembers with
    | .shape _ => none
    | leaf => some leaf
  | position :: rest =>
    match e.reduceMembers with
    | .shape members => members[position]?.bind fun m => m.expr.leafAt? rest
    | _ => none

/-- The part of a value that positions of members lead to, outermost first. -/
def Value.at? : Value → List Nat → Option Value
  | v, [] => some v
  | .object members, position :: rest => members[position]?.bind fun m => m.2.at? rest
  | .scalar _, _ :: _ => none

/-- A leaf stands for a scalar or an entity, which a placeholder reads under a path. -/
inductive Scope.LeafBound (scope : Scope) (path : MemberPath) : Expr → Expr → Projected → Prop
  | scalar {leaf : Expr} {s : Scalar} (h : scope.value leaf = .ok (some s)) :
      LeafBound scope path leaf (.binding path s.type) (.scalar s)
  | entity {entity : String} {source : MemberPath} {columns : EntityColumns}
      (h : scope.draft.projected? source = some (.entity columns)) :
      LeafBound scope path (.entity entity source) (.entity entity path) (.entity columns)

/-- A value is what a row holds in the columns for a scalar, or for the properties of an entity. -/
inductive Sql.Projected.ReadFrom (s : Select) (row : Row) : Projected → Value → Prop
  | scalar {scalar : Scalar} {position : Nat} {value : Value} (hcolumn : HoldsAt s.projection position scalar)
      (h : s.HoldsValue row position scalar.type value) : ReadFrom s row (.scalar scalar) value
  | entity {e : EntityColumns} {members : List (String × Value)}
      (h : List.Forall₂ (fun c m => c.1 = m.1 ∧ ∃ position, HoldsAt s.projection position c.2 ∧
        s.HoldsValue row position c.2.type m.2) e.columns members) :
      ReadFrom s row (.entity e) (.object members)

section Placeholders

variable {scope : Scope} {e shaper : Expr} {path : MemberPath} {shape : Shape}

/-- No access is left to be followed in a shape. -/
@[simp] theorem Expr.reduceMembers_shape (members : List ShapeMember) :
    (Expr.shape members).reduceMembers = .shape members := rfl

/-- What is left of an expression is a leaf of its own when it is no shape. -/
theorem Expr.leafAt?_nil (hshape : ∀ members, e.reduceMembers ≠ .shape members) :
    e.leafAt? [] = some e.reduceMembers := by
  unfold leafAt?
  split
  · exact absurd ‹_› (hshape _)
  · rfl

/-- The leaves of a shape are those of its members, by their positions. -/
theorem Expr.leafAt?_cons {members : List ShapeMember} (he : e.reduceMembers = .shape members)
    (position : Nat) (rest : List Nat) :
    e.leafAt? (position :: rest) = members[position]?.bind fun m => m.expr.leafAt? rest := by
  rw [leafAt?, he]

/-- A shape is no leaf. -/
theorem Expr.leafAt?_of_shape {members : List ShapeMember} (he : e.reduceMembers = .shape members) :
    e.leafAt? [] = none := by
  rw [leafAt?, he]

/-- Every leaf of a selector has a placeholder at its place in the shaper, and the shape says under the path
of the placeholder what the leaf stands for. -/
theorem Bound.leaf_mem (h : Bound scope e path shaper shape) {positions : List Nat} {leaf : Expr}
    (hleaf : e.leafAt? positions = some leaf) :
    ∃ p placeholder projected, scope.LeafBound p leaf placeholder projected ∧
      shaper.leafAt? positions = some placeholder ∧ (p, projected) ∈ shape := by
  induction h generalizing positions with
  | leaf hentity hshape h =>
    cases positions with
    | nil =>
      rw [Expr.leafAt?_nil hshape] at hleaf
      cases hleaf
      exact ⟨_, _, _, .scalar h, rfl, List.mem_cons_self⟩
    | cons position rest =>
      unfold Expr.leafAt? at hleaf
      split at hleaf
      · exact absurd ‹_› (hshape _)
      · cases hleaf
  | entity he h =>
    cases positions with
    | nil =>
      simp only [Expr.leafAt?, he, Option.some.injEq] at hleaf
      subst hleaf
      exact ⟨_, _, _, .entity h, rfl, List.mem_cons_self⟩
    | cons position rest => simp [Expr.leafAt?, he] at hleaf
  | shapeNil he =>
    cases positions with
    | nil => simp [Expr.leafAt?_of_shape he] at hleaf
    | cons position rest => simp [Expr.leafAt?_cons he] at hleaf
  | @shapeCons _ _ _ _ _ members _ _ _ he _ _ ihm ihrest =>
    cases positions with
    | nil => simp [Expr.leafAt?_of_shape he] at hleaf
    | cons position rest =>
      rw [Expr.leafAt?_cons he] at hleaf
      cases position with
      | zero =>
        obtain ⟨p, placeholder, projected, hbound, hplace, hmem⟩ := ihm hleaf
        exact ⟨p, placeholder, projected, hbound, hplace, List.mem_append_left _ hmem⟩
      | succ position =>
        -- the members that are left count as a shape of their own
        have hothers : (Expr.shape members).leafAt? (position :: rest) = some leaf := hleaf
        obtain ⟨p, placeholder, projected, hbound, hplace, hmem⟩ := ihrest hothers
        exact ⟨p, placeholder, projected, hbound, hplace, List.mem_append_right _ hmem⟩

end Placeholders

section Reading

/-- Two lists that are related through a third one, one by one. -/
theorem forall₂_through {α β γ : Type} {R : α → β → Prop} {S : β → γ → Prop} {T : α → γ → Prop}
    (h : ∀ a b c, R a b → S b c → T a c) {as : List α} {bs : List β} {cs : List γ}
    (hR : List.Forall₂ R as bs) (hS : List.Forall₂ S bs cs) : List.Forall₂ T as cs := by
  induction hR generalizing cs with
  | nil =>
    cases hS
    exact .nil
  | cons hab _ ih =>
    cases hS with
    | cons hbc hrest => exact .cons (h _ _ _ hab hbc) (ih hrest)

variable {s : Select} {row : Row}

/-- What can be read is written out. -/
theorem Sql.Select.reduceMembers_of_shape {e : Expr} {value : Value} (h : s.shape row e = .ok value) :
    e.reduceMembers = e := by
  cases e with
  | member _ _ => cases h
  | _ => rfl

/-- What is read of some members is read of each of them, in their order. -/
theorem Sql.Select.getElem?_of_shapeMembers {whole : Expr} {index : Nat} {members : List ShapeMember}
    {values : List (String × Value)} (h : s.shapeMembers row whole index members = .ok values)
    {position : Nat} {m : ShapeMember} (hm : members[position]? = some m) :
    ∃ v ∈ values[position]?, s.shape row m.expr = .ok v.2 := by
  induction members generalizing index values position with
  | nil => cases hm
  | cons first rest ih =>
    obtain ⟨_ | name, e⟩ := first
    · cases h
    · rw [shapeMembers] at h
      obtain ⟨value, hvalue, h⟩ := bind_eq_ok.1 h
      obtain ⟨others, hothers, h⟩ := bind_eq_ok.1 h
      cases h
      cases position with
      | zero =>
        cases hm
        exact ⟨(name, value), rfl, hvalue⟩
      | succ position => exact ih hothers hm

/-- The value that is read has, at the place of a leaf of the shaper, what is read of this leaf. -/
theorem Sql.Select.at?_of_shape {shaper placeholder : Expr} {value : Value} {positions : List Nat}
    (h : s.shape row shaper = .ok value) (hplace : shaper.leafAt? positions = some placeholder) :
    ∃ v, value.at? positions = some v ∧ s.shape row placeholder = .ok v := by
  induction positions generalizing shaper value with
  | nil =>
    refine ⟨value, rfl, ?_⟩
    unfold Expr.leafAt? at hplace
    split at hplace
    · cases hplace
    · cases hplace
      rwa [reduceMembers_of_shape h]
  | cons position rest ih =>
    unfold Expr.leafAt? at hplace
    split at hplace
    · rename_i members hmembers
      rw [reduceMembers_of_shape h] at hmembers
      subst hmembers
      obtain ⟨m, hm, hplace⟩ := Option.bind_eq_some_iff.1 hplace
      obtain ⟨values, hvalues, h⟩ := bind_eq_ok.1 h
      cases h
      obtain ⟨v, hv, hread⟩ := getElem?_of_shapeMembers hvalues hm
      obtain ⟨w, hw, hplaceholder⟩ := ih hread hplace
      exact ⟨w, by rw [Value.at?, hv, Option.bind_some, hw], hplaceholder⟩
    · cases hplace

variable {scope : Scope} {full : Shape} (hslots : SlotsHold s.projection full s.slots)
  (hrow : s.projection.length ≤ row.length)
include hslots hrow

/-- The placeholder of a leaf reads what the leaf stands for. -/
theorem Scope.LeafBound.shape_eq_ok {path : MemberPath} {leaf placeholder : Expr} {projected : Projected}
    (h : scope.LeafBound path leaf placeholder projected) (hfound : full.lookup path = some projected) :
    ∃ value, s.shape row placeholder = .ok value ∧ projected.ReadFrom s row value := by
  obtain ⟨slot, hslot, hholds⟩ := slot?_of_lookup hslots hfound
  cases h with
  | scalar _ =>
    cases hholds with
    | scalar hposition =>
      obtain ⟨literal, hread, -, hvalue⟩ := Select.read_eq_ok hrow hslot hposition
      exact ⟨_, by rw [Select.shape, hread]; rfl, .scalar hposition hvalue⟩
  | entity _ =>
    cases hholds with
    | @entity _ positions hpositions =>
      obtain ⟨members, hmembers, hall⟩ := Select.readProperties_eq_ok hrow hpositions
      refine ⟨.object members, ?_, .entity ?_⟩
      · rw [Select.shape, Select.readEntity, hslot]
        simp only [hmembers]
        rfl
      · refine forall₂_through (fun c p m hcp hpm => ?_) hpositions hall
        obtain ⟨column, hcolumn, hexpr⟩ := hcp.2
        obtain ⟨type, column', literal, hcolumn', htype, hliteral, hvalue⟩ := hpm.2
        rw [hcolumn] at hcolumn'
        cases hcolumn'
        have htype : type = c.2.type := by
          rw [← htype, hexpr]
          rfl
        subst htype
        exact ⟨hcp.1.trans hpm.1, p.2, ⟨column, hcolumn, hexpr⟩, column, literal, hcolumn, ‹_›, hliteral,
          hvalue⟩

/-- A row that is as long as the projection can be read by the shaper of a selector. -/
theorem Bound.shape_eq_ok {e shaper : Expr} {path : MemberPath} {shape : Shape}
    (h : Bound scope e path shaper shape) (hfound : ∀ p ∈ shape, full.lookup p.1 = some p.2) :
    (∃ value, s.shape row shaper = .ok value) ∧ ∀ members, shaper = .shape members → ∀ whole index,
      ∃ values, s.shapeMembers row whole index members = .ok values := by
  induction h with
  | leaf _ _ h =>
    obtain ⟨value, hvalue, -⟩ :=
      (Scope.LeafBound.scalar h).shape_eq_ok hslots hrow (hfound _ List.mem_cons_self)
    exact ⟨⟨value, hvalue⟩, nofun⟩
  | @entity _ entity source path _ _ h =>
    have hentity : scope.LeafBound path (.entity entity source) (.entity entity path) (.entity _) := .entity h
    obtain ⟨value, hvalue, -⟩ := hentity.shape_eq_ok hslots hrow (hfound _ List.mem_cons_self)
    exact ⟨⟨value, hvalue⟩, nofun⟩
  | shapeNil _ =>
    refine ⟨⟨.object [], rfl⟩, ?_⟩
    rintro _ ⟨⟩ _ _
    exact ⟨[], rfl⟩
  | @shapeCons _ _ bound _ name _ others _ _ _ _ _ ihm ihrest =>
    obtain ⟨hfirst, hothers⟩ := List.forall_mem_append.1 hfound
    obtain ⟨⟨value, hvalue⟩, -⟩ := ihm hfirst
    obtain ⟨-, hrest⟩ := ihrest hothers
    have hmembers : ∀ whole index, ∃ values,
        s.shapeMembers row whole index (⟨some name, bound⟩ :: others) = .ok values := by
      intro whole index
      obtain ⟨values, hvalues⟩ := hrest others rfl whole (index + 1)
      exact ⟨(name, value) :: values, bind_eq_ok.2 ⟨value, hvalue, bind_eq_ok.2 ⟨values, hvalues, rfl⟩⟩⟩
    refine ⟨?_, ?_⟩
    · obtain ⟨values, hvalues⟩ := hmembers (.shape (⟨some name, bound⟩ :: others)) 0
      exact ⟨.object values, bind_eq_ok.2 ⟨values, hvalues, rfl⟩⟩
    · rintro _ ⟨⟩
      exact hmembers

end Reading

/-- The shape of a selector, whose shaper has no two members of the same name in one shape, has one path for
every leaf. The placeholder in the place of a leaf finds what this leaf stands for, and every row that is as
long as the projection is read as a value that has, at the place of the leaf, what the row holds for it. -/
theorem bind_leaves_apart (scope : Scope) (e shaper : Expr) (shape : Shape)
    (h : scope.bind e .root = .ok (shaper, shape)) (hdistinct : shaper.hasDistinctMembers = true) :
    (shape.map (·.1)).Nodup ∧ ∀ row : Row,
      (scope.draft.project shape).finish.projection.length ≤ row.length →
      ∃ value, (scope.draft.project shape).finish.shape row shaper = .ok value ∧
        ∀ positions leaf, e.leafAt? positions = some leaf → ∃ path placeholder projected v,
          scope.LeafBound path leaf placeholder projected ∧
          shaper.leafAt? positions = some placeholder ∧ shape.lookup path = some projected ∧
          value.at? positions = some v ∧ projected.ReadFrom (scope.draft.project shape).finish row v := by
  have hbound := Scope.bind_bound _ _ _ _ h
  have hnodup := hbound.readsPaths.nodup hdistinct
  have hslots : SlotsHold (scope.draft.project shape).finish.projection shape
      (scope.draft.project shape).finish.slots := (scope.draft.project shape).rowSlots_hold
  refine ⟨hnodup, fun row hrow => ?_⟩
  obtain ⟨⟨value, hvalue⟩, -⟩ := hbound.shape_eq_ok hslots hrow fun p hp => lookup_of_mem hnodup hp
  refine ⟨value, hvalue, fun positions leaf hleaf => ?_⟩
  obtain ⟨path, placeholder, projected, hleafBound, hplace, hmem⟩ := hbound.leaf_mem hleaf
  have hfound := lookup_of_mem hnodup hmem
  obtain ⟨v, hv, hread⟩ := Select.at?_of_shape hvalue hplace
  obtain ⟨w, hw, hfrom⟩ := hleafBound.shape_eq_ok hslots hrow hfound
  rw [hread] at hw
  cases hw
  exact ⟨path, placeholder, projected, v, hleafBound, hplace, hfound, hv, hfrom⟩

/-- What selectors over all persons become shapes over. -/
def Scope.persons : Scope :=
  let env := (Compiler.new .persons .standard).environment
  env.scope (env.startQuery (Model.persons.entities.headD (.plain "Person")))

/-- A person is projected as a whole and by name. -/
def Expr.whoAndName : Expr :=
  .shapeOf [("who", .entity "Person" .root), ("name", .access (.entity "Person" .root) "name")]

/-- Beside a whole person, the name still reads the column of the name. -/
theorem whoAndName_leaves_apart :
    ∃ shaper shape value path s v, Scope.persons.bind .whoAndName .root = .ok (shaper, shape) ∧
      shaper.hasDistinctMembers = true ∧ (shape.map (·.1)).Nodup ∧
      Scope.persons.value (.access (.entity "Person" .root) "name") = .ok (some s) ∧
      shape.lookup path = some (.scalar s) ∧
      (Scope.persons.draft.project shape).finish.shape [.integer 2, .text "Ada"] shaper = .ok value ∧
      value.at? [1] = some v ∧ Projected.ReadFrom (Scope.persons.draft.project shape).finish
        [.integer 2, .text "Ada"] (.scalar s) v := by
  obtain ⟨⟨shaper, shape⟩, hbind, hcheck⟩ : ∃ bound, Scope.persons.bind .whoAndName .root = .ok bound ∧
      (bound.1.hasDistinctMembers &&
        decide ((Scope.persons.draft.project bound.2).finish.projection.length ≤ 2)) = true :=
    exists_of_any (by decide +kernel)
  obtain ⟨hdistinct, hlength⟩ := Bool.and_eq_true_iff.1 hcheck
  obtain ⟨hnodup, hrows⟩ := bind_leaves_apart .persons .whoAndName shaper shape hbind hdistinct
  obtain ⟨value, hvalue, hleaves⟩ := hrows [.integer 2, .text "Ada"] (of_decide_eq_true hlength)
  obtain ⟨path, _, _, v, hleaf, -, hfound, hv, hread⟩ :=
    hleaves [1] (.access (.entity "Person" .root) "name") rfl
  cases hleaf with
  | scalar hs =>
    exact ⟨shaper, shape, value, path, _, v, hbind, hdistinct, hnodup, hs, hfound, hvalue, hv, hread⟩

/-- The number and the name of a person are projected under one name. -/
def Expr.numberAndNameAlike : Expr :=
  .shapeOf [("A", .access (.entity "Person" .root) "id"), ("A", .access (.entity "Person" .root) "name")]

/-- The path of a value that a shaper reads, and its type. -/
def Expr.bound? : Expr → Option (MemberPath × DataType)
  | .binding path type => some (path, type)
  | _ => none

/-- Only a binding binds a path. -/
theorem Expr.bound?_eq_some {e : Expr} {b : MemberPath × DataType} (h : e.bound? = some b) :
    e = .binding b.1 b.2 := by
  cases e with
  | binding path type =>
    cases h
    rfl
  | _ => cases h

/-- Of two members with the same name, the second one reads the value of the first one. -/
theorem numberAndNameAlike_reads_number_twice :
    ∃ shaper shape path type s value,
      Scope.persons.bind .numberAndNameAlike .root = .ok (shaper, shape) ∧
      Expr.numberAndNameAlike.leafAt? [1] = some (.access (.entity "Person" .root) "name") ∧
      Scope.persons.value (.access (.entity "Person" .root) "name") = .ok (some s) ∧
      shaper.leafAt? [1] = some (.binding path type) ∧ shape.lookup path ≠ some (.scalar s) ∧
      (Scope.persons.draft.project shape).finish.shape [.integer 1, .text "Ada"] shaper = .ok value ∧
      value.at? [1] = some (.scalar (.integer 1)) := by
  obtain ⟨⟨shaper, shape⟩, hbind, hcheck⟩ :
      ∃ bound, Scope.persons.bind .numberAndNameAlike .root = .ok bound ∧
        (((bound.1.leafAt? [1]).bind Expr.bound?).any (fun place =>
            (Scope.persons.value (.access (.entity "Person" .root) "name")).toOption.any fun answer =>
              answer.any fun s => decide (bound.2.lookup place.1 ≠ some (.scalar s))) &&
          ((Scope.persons.draft.project bound.2).finish.shape [.integer 1, .text "Ada"] bound.1).toOption.any
            fun value => ((value.at? [1]).bind Value.asScalar?).any (·.same (.integer 1))) = true :=
    exists_of_any (by decide +kernel)
  obtain ⟨hplace, hshape⟩ := Bool.and_eq_true_iff.1 hcheck
  obtain ⟨place, hplace, hlookup⟩ := (Option.any_eq_true _ _).1 hplace
  obtain ⟨leaf, hleaf, hplace⟩ := Option.bind_eq_some_iff.1 hplace
  rw [Expr.bound?_eq_some hplace] at hleaf
  obtain ⟨answer, hs, hlookup⟩ := exists_of_any hlookup
  obtain ⟨s, rfl, hlookup⟩ := (Option.any_eq_true _ _).1 hlookup
  obtain ⟨value, hvalue, hat⟩ := exists_of_any hshape
  obtain ⟨literal, hliteral, hsame⟩ := (Option.any_eq_true _ _).1 hat
  obtain ⟨v, hv, hscalar⟩ := Option.bind_eq_some_iff.1 hliteral
  cases v with
  | object _ => cases hscalar
  | scalar _ =>
    cases hscalar
    rw [(Literal.same_iff_eq _ _).1 hsame] at hv
    exact ⟨shaper, shape, place.1, place.2, s, value, hbind, rfl, hs, hleaf, of_decide_eq_true hlookup,
      hvalue, hv⟩

end QueryPipeline
