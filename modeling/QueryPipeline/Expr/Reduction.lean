import QueryPipeline.Expr.Basic

/-!
# Members of shapes

Access to a member of a shape that is written out is the expression of that member. A chain of
accesses is followed as far as shapes are written out; a chain that cannot be followed to its end
stays as it is.
-/

set_option autoImplicit false

namespace QueryPipeline

mutual

/-- What the accesses `pending`, first access first, lead to from an expression, if they can be
followed through shapes that are written out. -/
def Expr.follow? : Expr → List String → Option Expr
  | .member (some receiver) name, pending =>
    match receiver.follow? (name.name :: pending) with
    | some reached => some reached
    | none => if pending.isEmpty then some (.member (some receiver) name) else none
  | .shape members, first :: pending => followMember? members first pending
  | e, [] => some e
  | _, _ :: _ => none

/-- What the accesses `pending` lead to from the first member with a name. -/
def followMember? : List ShapeMember → String → List String → Option Expr
  | [], _, _ => none
  | ⟨name, e⟩ :: rest, first, pending =>
    if name = some first then e.follow? pending else followMember? rest first pending

end

/-- The expression that is left when accesses to members of shapes are followed. -/
def Expr.reduceMembers (e : Expr) : Expr := (e.follow? []).getD e

/-- The first member of a shape with a name. -/
def findMember? (members : List ShapeMember) (name : String) : Option ShapeMember :=
  members.find? (·.name == some name)

/-- The first of some members is found under its name. -/
theorem findMember?_cons_self (name : String) (e : Expr) (rest : List ShapeMember) :
    findMember? (⟨some name, e⟩ :: rest) name = some ⟨some name, e⟩ := by
  simp [findMember?]

/-- Under another name than that of the first of some members, one of the others is found. -/
theorem findMember?_cons_of_ne {name : Option String} {first : String} (h : name ≠ some first) (e : Expr)
    (rest : List ShapeMember) : findMember? (⟨name, e⟩ :: rest) first = findMember? rest first := by
  simp [findMember?, h]

/-- To follow accesses through members is to find the first one by its name and to go on from its expression. -/
theorem followMember?_eq (members : List ShapeMember) (first : String) (pending : List String) :
    followMember? members first pending = (findMember? members first).bind (·.expr.follow? pending) := by
  induction members with
  | nil => rfl
  | cons m rest ih =>
    obtain ⟨name, e⟩ := m
    rw [followMember?]
    by_cases hname : name = some first
    · rw [if_pos hname, hname, findMember?_cons_self, Option.bind_some]
    · rw [if_neg hname, findMember?_cons_of_ne hname, ih]

namespace Expr

/-- The expression is an access to a member of a value. -/
def IsAccess (e : Expr) : Prop := ∃ receiver name, e = .member (some receiver) name

/-- The expression is a shape that is written out. -/
def IsShape (e : Expr) : Prop := ∃ members, e = .shape members

/-- An access that cannot be followed stays as it is, if nothing is behind it. -/
theorem follow?_access (receiver : Expr) (name : QualifiedName) (pending : List String) :
    (member (some receiver) name).follow? pending =
      (receiver.follow? (name.name :: pending)).or
        (if pending = [] then some (.member (some receiver) name) else none) := by
  rw [follow?]
  cases receiver.follow? (name.name :: pending) with
  | none => simp
  | some reached => rfl

/-- Accesses go from a shape to its first member with the name of the first access. -/
theorem follow?_shape (members : List ShapeMember) (first : String) (pending : List String) :
    (shape members).follow? (first :: pending) =
      (findMember? members first).bind (·.expr.follow? pending) := by
  rw [follow?, followMember?_eq]

/-- Where no access is left to be followed, an expression that is none itself is reached. -/
theorem follow?_here {e : Expr} (he : ¬ e.IsAccess) : e.follow? [] = some e :=
  follow?.eq_3 e fun receiver name h => he ⟨receiver, name, h⟩

/-- No access is followed into an expression that is neither an access nor a shape. -/
theorem follow?_stuck {e : Expr} (haccess : ¬ e.IsAccess) (hshape : ¬ e.IsShape) (first : String)
    (pending : List String) : e.follow? (first :: pending) = none :=
  follow?.eq_4 e first pending (fun receiver name h => haccess ⟨receiver, name, h⟩)
    fun members h => hshape ⟨members, h⟩

/-- Following accesses goes from an access to its receiver, and from a shape to the first member with the name
of the next access. -/
@[elab_as_elim]
theorem follow_induction {motive : Expr → List String → Prop}
    (access : ∀ receiver name pending, motive receiver (name.name :: pending) →
      motive (.member (some receiver) name) pending)
    (select : ∀ members first pending,
      (∀ m, findMember? members first = some m → motive m.expr pending) →
        motive (.shape members) (first :: pending))
    (here : ∀ e : Expr, ¬ e.IsAccess → motive e [])
    (stuck : ∀ e : Expr, ¬ e.IsAccess → ¬ e.IsShape → ∀ first pending, motive e (first :: pending))
    (e : Expr) (pending : List String) : motive e pending := by
  refine follow?.induct motive
    (fun members first pending => ∀ m, findMember? members first = some m → motive m.expr pending)
    (fun receiver name pending _ _ => access receiver name pending)
    (fun receiver name pending _ _ => access receiver name pending)
    (fun receiver name pending _ _ => access receiver name pending)
    select ?here ?stuck ?nil ?found ?other e pending
  case here => exact fun e he => here e fun ⟨receiver, name, h⟩ => he receiver name h
  case stuck =>
    intro e first pending haccess hshape
    exact stuck e (fun ⟨receiver, name, h⟩ => haccess receiver name h)
      (fun ⟨members, h⟩ => hshape members h) first pending
  case nil => exact fun _ _ => nofun
  case found =>
    intro e rest first pending he m hm
    rw [findMember?_cons_self] at hm
    rwa [← Option.some.inj hm]
  case other =>
    intro name e rest first pending hname hrest m hm
    rw [findMember?_cons_of_ne hname] at hm
    exact hrest m hm

/-- The accesses `pending`, first access first, reach an expression from another one: each goes on to the first
member with its name of a shape that is written out. -/
inductive Reaches : Expr → List String → Expr → Prop
  | here (e : Expr) : Reaches e [] e
  | access {receiver r : Expr} {name : QualifiedName} {pending : List String}
      (h : Reaches receiver (name.name :: pending) r) : Reaches (.member (some receiver) name) pending r
  | select {members : List ShapeMember} {first : String} {m : ShapeMember} {pending : List String} {r : Expr}
      (hm : findMember? members first = some m) (h : Reaches m.expr pending r) :
      Reaches (.shape members) (first :: pending) r

/-- What accesses are followed to is reached by them. -/
theorem reaches_of_follow? {e : Expr} {pending : List String} {r : Expr} (h : e.follow? pending = some r) :
    e.Reaches pending r := by
  induction e, pending using follow_induction with
  | access receiver name pending ih =>
    rw [follow?_access, Option.or_eq_some_iff] at h
    rcases h with h | ⟨-, h⟩
    · exact .access (ih h)
    · obtain ⟨rfl, rfl⟩ : pending = [] ∧ member (some receiver) name = r := by simpa using h
      exact .here _
  | select members first pending ih =>
    rw [follow?_shape, Option.bind_eq_some_iff] at h
    obtain ⟨m, hm, h⟩ := h
    exact .select hm (ih m hm h)
  | here e he =>
    rw [follow?_here he] at h
    rw [← Option.some.inj h]
    exact .here e
  | stuck e haccess hshape first pending =>
    rw [follow?_stuck haccess hshape] at h
    cases h

end Expr

/-- What is left when accesses are followed is reached without any more of them. -/
theorem Expr.reaches_reduceMembers (e : Expr) : e.Reaches [] e.reduceMembers := by
  unfold reduceMembers
  cases h : e.follow? [] with
  | none => exact .here e
  | some r => exact reaches_of_follow? h

/-- The expression of a member is smaller than the members together. -/
theorem sizeOf_findMember?_lt {members : List ShapeMember} {name : String} {m : ShapeMember}
    (h : findMember? members name = some m) : sizeOf m.expr < sizeOf members := by
  have hm := List.sizeOf_lt_of_mem (List.mem_of_find?_eq_some h)
  have : sizeOf m.expr < sizeOf m := by
    cases m
    simp only [ShapeMember.mk.sizeOf_spec]
    omega
  omega

/-- No larger expression is reached. -/
theorem Expr.Reaches.sizeOf_le {e : Expr} {pending : List String} {r : Expr} (h : e.Reaches pending r) :
    sizeOf r ≤ sizeOf e := by
  induction h with
  | here => exact Nat.le_refl _
  | access _ ih =>
    simp only [Expr.member.sizeOf_spec, Option.some.sizeOf_spec]
    omega
  | select hm _ ih =>
    have found := sizeOf_findMember?_lt hm
    simp only [Expr.shape.sizeOf_spec]
    omega

/-- Following accesses never leads to a larger expression. -/
theorem Expr.sizeOf_reduceMembers_le (e : Expr) : sizeOf e.reduceMembers ≤ sizeOf e :=
  e.reaches_reduceMembers.sizeOf_le

end QueryPipeline
