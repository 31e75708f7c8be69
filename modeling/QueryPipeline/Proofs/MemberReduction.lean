import QueryPipeline.Expr.Reduction

/-!
# Accesses are followed to their end

Accesses can be followed in two parts, so what is left when they are followed does not change when they are
followed again, and an access is followed just when its receiver is left as a shape with such a member. Following
accesses keeps every meaning of expressions that takes shapes for records, whatever it makes of the other forms.
-/

set_option autoImplicit false

namespace QueryPipeline

universe u

/-- A meaning of expressions that takes shapes for records. An access means the same for receivers that mean the
same, and an access to a member of a shape that is written out means what the first member with its name means. -/
structure RecordMeaning (V : Type u) where
  eval : Expr → V
  access_congr {receiver receiver' : Expr} (h : eval receiver = eval receiver') (name : QualifiedName) :
    eval (.member (some receiver) name) = eval (.member (some receiver') name)
  access_shape {members : List ShapeMember} {name : QualifiedName} {m : ShapeMember}
    (hm : findMember? members name.name = some m) :
    eval (.member (some (.shape members)) name) = eval m.expr

namespace RecordMeaning

variable {V : Type u} (S : RecordMeaning V)

/-- The expression with some accesses behind it. -/
def accesses (e : Expr) (names : List QualifiedName) : Expr :=
  names.foldl (fun receiver name => .member (some receiver) name) e

/-- Expressions that mean the same mean the same with accesses behind them. -/
theorem eval_accesses_congr {e e' : Expr} (h : S.eval e = S.eval e') (names : List QualifiedName) :
    S.eval (accesses e names) = S.eval (accesses e' names) := by
  induction names generalizing e e' with
  | nil => exact h
  | cons name rest ih => exact ih (S.access_congr h name)

/-- What accesses reach means the same as the expression with these accesses behind it. -/
theorem eval_of_reaches {e : Expr} {pending : List String} {r : Expr} (h : e.Reaches pending r) :
    ∀ names : List QualifiedName, names.map (·.name) = pending → S.eval r = S.eval (accesses e names) := by
  induction h with
  | here e =>
    intro names hnames
    rw [List.map_eq_nil_iff.1 hnames]
    rfl
  | @access receiver r name pending _ ih =>
    intro names hnames
    exact ih (name :: names) (by rw [List.map_cons, hnames])
  | @select members first m pending r hm _ ih =>
    intro names hnames
    obtain ⟨name, rest, rfl, rfl, hrest⟩ := List.map_eq_cons_iff.1 hnames
    rw [ih rest hrest]
    exact S.eval_accesses_congr (S.access_shape hm).symm rest

/-- What is left when accesses are followed has the same meaning. -/
theorem eval_reduceMembers (e : Expr) : S.eval e.reduceMembers = S.eval e :=
  S.eval_of_reaches e.reaches_reduceMembers [] rfl

end RecordMeaning

namespace Expr

/-- Without accesses behind it, an expression is always followed, to what is left of it. -/
theorem follow?_nil (e : Expr) : e.follow? [] = some e.reduceMembers := by
  have hsome : (e.follow? []).isSome := by
    by_cases he : e.IsAccess
    · obtain ⟨receiver, name, rfl⟩ := he
      rw [follow?_access, if_pos rfl, Option.isSome_or, Option.isSome_some, Bool.or_true]
    · rw [follow?_here he, Option.isSome_some]
  obtain ⟨r, hr⟩ := Option.isSome_iff_exists.1 hsome
  rw [reduceMembers, hr, Option.getD_some]

/-- Accesses can be followed in two parts. -/
theorem follow?_append (e : Expr) (pending more : List String) :
    e.follow? (pending ++ more) = (e.follow? pending).bind (·.follow? more) := by
  induction e, pending using follow_induction with
  | access receiver name pending ih =>
    rw [follow?_access, follow?_access, ← List.cons_append, ih]
    cases hreceiver : receiver.follow? (name.name :: pending) with
    | some reached =>
      rw [Option.bind_some, Option.some_or, Option.bind_some]
      -- an access that cannot be followed stays only where nothing is behind it
      cases more with
      | nil => rw [follow?_nil, Option.some_or]
      | cons first more => rw [if_neg (by simp), Option.or_none]
    | none =>
      rw [Option.bind_none, Option.none_or, Option.none_or]
      cases pending with
      | nil =>
        rw [hreceiver, Option.bind_none] at ih
        rw [if_pos rfl, Option.bind_some, follow?_access, ← List.singleton_append, ih, Option.none_or,
          List.nil_append]
      | cons first pending => rfl
  | select members first pending ih =>
    rw [List.cons_append, follow?_shape, follow?_shape]
    cases hm : findMember? members first with
    | none => rfl
    | some m => exact ih m hm
  | here e he => rw [List.nil_append, follow?_here he, Option.bind_some]
  | stuck e haccess hshape first pending =>
    rw [List.cons_append, follow?_stuck haccess hshape, follow?_stuck haccess hshape, Option.bind_none]

/-- To follow accesses again changes nothing. -/
theorem reduceMembers_reduceMembers (e : Expr) : e.reduceMembers.reduceMembers = e.reduceMembers := by
  have h := e.follow?_append [] []
  rw [List.append_nil, follow?_nil, Option.bind_some, follow?_nil] at h
  exact (Option.some.inj h).symm

/-- Accesses are followed from what is left of the expression in front of them. -/
theorem follow?_reduceMembers (e : Expr) (pending : List String) :
    e.reduceMembers.follow? pending = e.follow? pending := by
  have h := e.follow?_append [] pending
  rw [List.nil_append, follow?_nil, Option.bind_some] at h
  exact h.symm

/-- Only in a shape are accesses followed on. -/
theorem follow?_cons_of_final {e : Expr} (hfinal : e.reduceMembers = e) (hshape : ¬ e.IsShape) (first : String)
    (pending : List String) : e.follow? (first :: pending) = none := by
  by_cases haccess : e.IsAccess
  · obtain ⟨receiver, name, rfl⟩ := haccess
    rw [follow?_access, if_neg (List.cons_ne_nil first pending), Option.or_none, ← List.singleton_append,
      follow?_append]
    cases hr : receiver.follow? [name.name] with
    | none => rfl
    | some r =>
      -- the access would be left as a part of its own receiver
      have hleft := follow?_access receiver name []
      rw [follow?_nil, hfinal, hr, Option.some_or] at hleft
      have hsize := (reaches_of_follow? hr).sizeOf_le
      rw [← Option.some.inj hleft] at hsize
      simp only [member.sizeOf_spec, Option.some.sizeOf_spec] at hsize
      omega
  · exact follow?_stuck haccess hshape first pending

/-- An access is followed when its receiver is left as a shape with such a member, and otherwise it stays. -/
theorem reduceMembers_access (receiver : Expr) (name : QualifiedName) :
    (member (some receiver) name).reduceMembers =
      match receiver.reduceMembers with
      | .shape members =>
        match findMember? members name.name with
        | some m => m.expr.reduceMembers
        | none => .member (some receiver) name
      | _ => .member (some receiver) name := by
  have h := follow?_access receiver name []
  rw [follow?_nil, if_pos rfl, ← receiver.follow?_reduceMembers] at h
  split
  · rename_i members hreceiver
    rw [hreceiver, follow?_shape] at h
    split
    · rename_i m hm
      rw [hm, Option.bind_some, follow?_nil, Option.some_or] at h
      exact Option.some.inj h
    · rename_i hm
      rw [hm, Option.bind_none, Option.none_or] at h
      exact Option.some.inj h
  · rename_i hshape
    rw [follow?_cons_of_final receiver.reduceMembers_reduceMembers fun ⟨members, h⟩ => hshape members h,
      Option.none_or] at h
    exact Option.some.inj h

/-- Following accesses keeps every meaning that takes shapes for records, and it goes to the end: following them
again changes nothing, and what is left is no access whose receiver is left as a shape with such a member. -/
theorem accesses_followed_to_end {V : Type u} (S : RecordMeaning V) (e : Expr) :
    S.eval e.reduceMembers = S.eval e ∧ e.reduceMembers.reduceMembers = e.reduceMembers ∧
      ∀ receiver name members, e.reduceMembers = .member (some receiver) name →
        receiver.reduceMembers = .shape members → findMember? members name.name = none := by
  refine ⟨S.eval_reduceMembers e, e.reduceMembers_reduceMembers, fun receiver name members he hreceiver => ?_⟩
  cases hm : findMember? members name.name with
  | none => rfl
  | some m =>
    have hfinal := e.reduceMembers_reduceMembers
    rw [he, reduceMembers_access, hreceiver] at hfinal
    simp only [hm] at hfinal
    have hmember := m.expr.sizeOf_reduceMembers_le
    have hfound := sizeOf_findMember?_lt hm
    have hshape := receiver.sizeOf_reduceMembers_le
    rw [hfinal] at hmember
    rw [hreceiver] at hshape
    simp only [member.sizeOf_spec, shape.sizeOf_spec, Option.some.sizeOf_spec] at hmember hshape
    omega

-- accesses go through two shapes, to the first of two members of one name, and stop at an access to a parameter
example : (((shapeOf [("Inner", shapeOf [("Age", access (.param "p") "age"), ("Age", .param "q")])]).access
    "Inner").access "Age").reduceMembers = access (.param "p") "age" := rfl

end Expr

end QueryPipeline
