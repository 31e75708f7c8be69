import Mathlib.Tactic.Tauto
import QueryPipeline.Expr.Reduction
import QueryPipeline.Expr.Substitution

/-!
# Properties of all parts of an expression

`Expr.everywhere p` says that `p` holds of an expression and of every expression in it. It survives
following members of shapes and putting expressions in the places of parameters, so what is known of the
body of a function and of its argument is known of the body with the argument in it.
-/

set_option autoImplicit false

namespace QueryPipeline

mutual

/-- A property holds of an expression and of all expressions in it. -/
def Expr.everywhere (p : Expr → Bool) : Expr → Bool
  | .param name => p (.param name)
  | .constant value => p (.constant value)
  | .parameter name type => p (.parameter name type)
  | .member receiver name => p (.member receiver name) && everywhereReceiver p receiver
  | .shape members => p (.shape members) && everywhereMembers p members
  | .binary op left right =>
    p (.binary op left right) && left.everywhere p && right.everywhere p
  | .unary op operand => p (.unary op operand) && operand.everywhere p
  | .call receiver function args =>
    p (.call receiver function args) && everywhereReceiver p receiver && everywhereArgs p args
  | .conditional test ifTrue ifFalse =>
    p (.conditional test ifTrue ifFalse) && test.everywhere p && ifTrue.everywhere p
      && ifFalse.everywhere p
  | .convert operand type => p (.convert operand type) && operand.everywhere p
  | .entity name path => p (.entity name path)
  | .binding path type => p (.binding path type)
  | .ensureNonEmpty inner => p (.ensureNonEmpty inner) && inner.everywhere p

/-- A property holds of all expressions in the value that a member or method belongs to. -/
def everywhereReceiver (p : Expr → Bool) : Option Expr → Bool
  | none => true
  | some e => e.everywhere p

/-- A property holds of all expressions in some arguments. -/
def everywhereArgs (p : Expr → Bool) : List Expr → Bool
  | [] => true
  | e :: rest => e.everywhere p && everywhereArgs p rest

/-- A property holds of all expressions in some members. -/
def everywhereMembers (p : Expr → Bool) : List ShapeMember → Bool
  | [] => true
  | ⟨_, e⟩ :: rest => e.everywhere p && everywhereMembers p rest

end

/-- The forms that only the compiler writes. -/
def Expr.isCompilerForm : Expr → Bool
  | .entity .. | .binding .. | .ensureNonEmpty _ => true
  | _ => false

/-- An expression that a pipeline may contain. -/
def Expr.isSource (e : Expr) : Bool := e.everywhere fun part => !part.isCompilerForm

/-- No two members of a shape have the same name. -/
def Expr.namesDiffer : Expr → Bool
  | .shape members => decide (members.filterMap (·.name)).Nodup
  | _ => true

/-- No shape in an expression has two members of the same name. -/
def Expr.hasDistinctMembers (e : Expr) : Bool := e.everywhere Expr.namesDiffer

namespace Expr

variable {p q : Expr → Bool}

/-- What holds everywhere in an expression holds of it. -/
theorem everywhere_self {e : Expr} (h : e.everywhere p = true) : p e = true := by
  cases e <;> simp_all [everywhere]

/-- What holds everywhere in some arguments holds everywhere in each of them. -/
theorem everywhere_of_mem {args : List Expr} {e : Expr} (h : everywhereArgs p args = true)
    (he : e ∈ args) : e.everywhere p = true := by
  induction args with
  | nil => cases he
  | cons first rest ih =>
    simp only [everywhereArgs, Bool.and_eq_true] at h
    rcases List.mem_cons.1 he with rfl | he
    · exact h.1
    · exact ih h.2 he

/-- What holds everywhere in the members of a shape holds everywhere in one of them. -/
theorem everywhere_findMember? {members : List ShapeMember} {name : String} {m : ShapeMember}
    (h : everywhereMembers p members = true) (hm : findMember? members name = some m) :
    m.expr.everywhere p = true := by
  have hmem := List.mem_of_find?_eq_some hm
  clear hm
  induction members with
  | nil => cases hmem
  | cons first rest ih =>
    obtain ⟨_, e⟩ := first
    simp only [everywhereMembers, Bool.and_eq_true] at h
    rcases List.mem_cons.1 hmem with rfl | hmem
    · exact h.1
    · exact ih h.2 hmem

/-- What accesses reach is a part of the expression, so what holds everywhere in the one holds everywhere in the
other. -/
theorem everywhere_of_reaches {e : Expr} {pending : List String} {r : Expr} (h : e.Reaches pending r)
    (he : e.everywhere p = true) : r.everywhere p = true := by
  induction h with
  | here => exact he
  | access _ ih =>
    simp only [everywhere, everywhereReceiver, Bool.and_eq_true] at he
    exact ih he.2
  | select hm _ ih =>
    simp only [everywhere, Bool.and_eq_true] at he
    exact ih (everywhere_findMember? he.2 hm)

/-- What holds everywhere in an expression holds everywhere in what is left when accesses to members of
shapes are followed. -/
theorem everywhere_reduceMembers {e : Expr} (h : e.everywhere p = true) :
    e.reduceMembers.everywhere p = true :=
  everywhere_of_reaches e.reaches_reduceMembers h

/-- The members of a shape differ when the first one differs from the others and these differ. -/
theorem hasDistinctMembers_cons {name : String} {e : Expr} {rest : List ShapeMember} :
    (Expr.shape (⟨some name, e⟩ :: rest)).hasDistinctMembers = true ↔
      name ∉ rest.filterMap (·.name) ∧ e.hasDistinctMembers = true ∧
        (Expr.shape rest).hasDistinctMembers = true := by
  simp only [hasDistinctMembers, everywhere, everywhereMembers, namesDiffer, List.filterMap_cons,
    Bool.and_eq_true, decide_eq_true_eq, List.nodup_cons]
  tauto

section Substitution

variable {f : String → Expr}

mutual

/-- When `p` holds everywhere in an expression, `q` holds everywhere in the outcome of a replacement, as
long as it holds of what takes the place of the parameters and of the outcome for every expression with
`p` that is not a parameter. -/
theorem everywhere_mapParams (hp : ∀ e : Expr, e.everywhere p = true → (∀ name, e ≠ .param name) →
      q (e.mapParams f) = true) (hf : ∀ name, p (.param name) = true → (f name).everywhere q = true) :
    ∀ e : Expr, e.everywhere p = true → (e.mapParams f).everywhere q = true
  | .param name => hf name
  | .constant _ | .parameter _ _ | .entity _ _ | .binding _ _ => fun h => hp _ h nofun
  | .member receiver name => by
    have hr := everywhereReceiver_mapParams hp hf receiver
    intro h
    have hself := hp (.member receiver name) h nofun
    simp only [everywhere, mapParams, Bool.and_eq_true] at h hself ⊢
    exact ⟨hself, hr h.2⟩
  | .shape members => by
    have hm := everywhereMembers_mapParams hp hf members
    intro h
    have hself := hp (.shape members) h nofun
    simp only [everywhere, mapParams, Bool.and_eq_true] at h hself ⊢
    exact ⟨hself, hm h.2⟩
  | .binary op left right => by
    have hl := everywhere_mapParams hp hf left
    have hr := everywhere_mapParams hp hf right
    intro h
    have hself := hp (.binary op left right) h nofun
    simp only [everywhere, mapParams, Bool.and_eq_true] at h hself ⊢
    exact ⟨⟨hself, hl h.1.2⟩, hr h.2⟩
  | .unary op operand => by
    have ho := everywhere_mapParams hp hf operand
    intro h
    have hself := hp (.unary op operand) h nofun
    simp only [everywhere, mapParams, Bool.and_eq_true] at h hself ⊢
    exact ⟨hself, ho h.2⟩
  | .call receiver function args => by
    have hr := everywhereReceiver_mapParams hp hf receiver
    have ha := everywhereArgs_mapParams hp hf args
    intro h
    have hself := hp (.call receiver function args) h nofun
    simp only [everywhere, mapParams, Bool.and_eq_true] at h hself ⊢
    exact ⟨⟨hself, hr h.1.2⟩, ha h.2⟩
  | .conditional test ifTrue ifFalse => by
    have ht := everywhere_mapParams hp hf test
    have hl := everywhere_mapParams hp hf ifTrue
    have hr := everywhere_mapParams hp hf ifFalse
    intro h
    have hself := hp (.conditional test ifTrue ifFalse) h nofun
    simp only [everywhere, mapParams, Bool.and_eq_true] at h hself ⊢
    exact ⟨⟨⟨hself, ht h.1.1.2⟩, hl h.1.2⟩, hr h.2⟩
  | .convert operand type => by
    have ho := everywhere_mapParams hp hf operand
    intro h
    have hself := hp (.convert operand type) h nofun
    simp only [everywhere, mapParams, Bool.and_eq_true] at h hself ⊢
    exact ⟨hself, ho h.2⟩
  | .ensureNonEmpty inner => by
    have hi := everywhere_mapParams hp hf inner
    intro h
    have hself := hp (.ensureNonEmpty inner) h nofun
    simp only [everywhere, mapParams, Bool.and_eq_true] at h hself ⊢
    exact ⟨hself, hi h.2⟩

/-- What holds of all parts of a receiver holds with expressions in the places of parameters. -/
theorem everywhereReceiver_mapParams (hp : ∀ e : Expr, e.everywhere p = true →
      (∀ name, e ≠ .param name) → q (e.mapParams f) = true)
      (hf : ∀ name, p (.param name) = true → (f name).everywhere q = true) :
    ∀ r : Option Expr, everywhereReceiver p r = true →
      everywhereReceiver q (mapParamsReceiver f r) = true
  | none => id
  | some e => everywhere_mapParams hp hf e

/-- What holds of all parts of arguments holds with expressions in the places of parameters. -/
theorem everywhereArgs_mapParams (hp : ∀ e : Expr, e.everywhere p = true →
      (∀ name, e ≠ .param name) → q (e.mapParams f) = true)
      (hf : ∀ name, p (.param name) = true → (f name).everywhere q = true) :
    ∀ es : List Expr, everywhereArgs p es = true → everywhereArgs q (mapParamsArgs f es) = true
  | [] => id
  | e :: rest => by
    have he := everywhere_mapParams hp hf e
    have hrest := everywhereArgs_mapParams hp hf rest
    simp only [everywhereArgs, mapParamsArgs, Bool.and_eq_true]
    exact fun h => ⟨he h.1, hrest h.2⟩

/-- What holds of all parts of members holds with expressions in the places of parameters. -/
theorem everywhereMembers_mapParams (hp : ∀ e : Expr, e.everywhere p = true →
      (∀ name, e ≠ .param name) → q (e.mapParams f) = true)
      (hf : ∀ name, p (.param name) = true → (f name).everywhere q = true) :
    ∀ ms : List ShapeMember, everywhereMembers p ms = true →
      everywhereMembers q (mapParamsMembers f ms) = true
  | [] => id
  | ⟨_, e⟩ :: rest => by
    have he := everywhere_mapParams hp hf e
    have hrest := everywhereMembers_mapParams hp hf rest
    simp only [everywhereMembers, mapParamsMembers, Bool.and_eq_true]
    exact fun h => ⟨he h.1, hrest h.2⟩

end

mutual

/-- Replacing every parameter by itself changes nothing. -/
theorem mapParams_param : ∀ e : Expr, e.mapParams .param = e
  | .param _ | .constant _ | .parameter _ _ | .entity _ _ | .binding _ _ => rfl
  | .member receiver _ => by rw [mapParams, mapParamsReceiver_param receiver]
  | .shape members => by rw [mapParams, mapParamsMembers_param members]
  | .binary _ left right => by rw [mapParams, mapParams_param left, mapParams_param right]
  | .unary _ operand | .convert operand _ | .ensureNonEmpty operand => by
    rw [mapParams, mapParams_param operand]
  | .call receiver _ args => by
    rw [mapParams, mapParamsReceiver_param receiver, mapParamsArgs_param args]
  | .conditional test ifTrue ifFalse => by
    rw [mapParams, mapParams_param test, mapParams_param ifTrue, mapParams_param ifFalse]

/-- With every parameter in its own place a receiver stays as it is. -/
theorem mapParamsReceiver_param : ∀ r : Option Expr, mapParamsReceiver .param r = r
  | none => rfl
  | some e => by rw [mapParamsReceiver, mapParams_param e]

/-- With every parameter in its own place arguments stay as they are. -/
theorem mapParamsArgs_param : ∀ es : List Expr, mapParamsArgs .param es = es
  | [] => rfl
  | e :: rest => by rw [mapParamsArgs, mapParams_param e, mapParamsArgs_param rest]

/-- With every parameter in its own place members stay as they are. -/
theorem mapParamsMembers_param : ∀ ms : List ShapeMember, mapParamsMembers .param ms = ms
  | [] => rfl
  | ⟨_, e⟩ :: rest => by rw [mapParamsMembers, mapParams_param e, mapParamsMembers_param rest]

end

/-- With expressions that are no nulls in the places of parameters an expression is a null when it was before. -/
theorem isNull_mapParams (hf : ∀ name, (f name).isNull = false) (e : Expr) :
    (e.mapParams f).isNull = e.isNull := by
  cases e with
  | param name => exact hf name
  | _ => rfl

/-- What follows for every expression from what holds everywhere in it holds everywhere. -/
theorem everywhere_imp (hpq : ∀ e : Expr, e.everywhere p = true → q e = true) {e : Expr}
    (h : e.everywhere p = true) : e.everywhere q = true := by
  have hmapped : (e.mapParams .param).everywhere q = true := by
    refine everywhere_mapParams (fun e he _ => ?_) (fun name hname => ?_) e h
    · rw [mapParams_param]
      exact hpq e he
    · exact hpq (.param name) hname
  rwa [mapParams_param] at hmapped

/-- Replacement leaves the names of members as they are. -/
theorem names_mapParamsMembers (f : String → Expr) (members : List ShapeMember) :
    (mapParamsMembers f members).map (·.name) = members.map (·.name) := by
  induction members with
  | nil => rfl
  | cons m rest ih =>
    obtain ⟨name, e⟩ := m
    simp [mapParamsMembers, ih]

/-- With expressions in the places of parameters the members of a shape have names of their own when they did
before. -/
theorem namesDiffer_mapParams (f : String → Expr) {e : Expr} (h : e.namesDiffer = true)
    (hne : ∀ name, e ≠ .param name) : (e.mapParams f).namesDiffer = true := by
  cases e with
  | param name => exact absurd rfl (hne name)
  | shape members =>
    have hnames : (mapParamsMembers f members).filterMap (·.name) = members.filterMap (·.name) := by
      simpa [List.filterMap_map, Function.comp_def] using
        congrArg (List.filterMap id) (names_mapParamsMembers f members)
    simpa [mapParams, namesDiffer, hnames] using h
  | _ => rfl

/-- What holds everywhere in the body of a function and in an argument holds everywhere in the body
with the argument in it. -/
theorem everywhere_inline {g : Lambda} {argument : Expr}
    (hp : ∀ f e, p e = true → (∀ name, e ≠ .param name) → p (e.mapParams f) = true)
    (hparam : ∀ name, p (.param name) = true) (hbody : g.body.everywhere p = true)
    (harg : argument.everywhere p = true) : (g.inline argument).everywhere p = true := by
  refine everywhere_mapParams (fun e he => hp _ e (everywhere_self he)) (fun name _ => ?_) g.body hbody
  split
  · exact harg
  · exact hparam name

end Substitution

mutual

/-- What holds of all expressions holds everywhere in an expression. -/
theorem everywhere_of_forall (h : ∀ e, p e = true) : ∀ e : Expr, e.everywhere p = true
  | .param _ | .constant _ | .parameter _ _ | .entity _ _ | .binding _ _ => h _
  | .member receiver _ => by
    rw [everywhere, h, everywhereReceiver_of_forall h receiver]
    rfl
  | .shape members => by
    rw [everywhere, h, everywhereMembers_of_forall h members]
    rfl
  | .binary _ left right => by
    rw [everywhere, h, everywhere_of_forall h left, everywhere_of_forall h right]
    rfl
  | .unary _ operand | .convert operand _ | .ensureNonEmpty operand => by
    rw [everywhere, h, everywhere_of_forall h operand]
    rfl
  | .call receiver _ args => by
    rw [everywhere, h, everywhereReceiver_of_forall h receiver, everywhereArgs_of_forall h args]
    rfl
  | .conditional test ifTrue ifFalse => by
    rw [everywhere, h, everywhere_of_forall h test, everywhere_of_forall h ifTrue,
      everywhere_of_forall h ifFalse]
    rfl

/-- What holds of all expressions holds of all parts of a receiver. -/
theorem everywhereReceiver_of_forall (h : ∀ e, p e = true) :
    ∀ r : Option Expr, everywhereReceiver p r = true
  | none => rfl
  | some e => everywhere_of_forall h e

/-- What holds of all expressions holds of all parts of arguments. -/
theorem everywhereArgs_of_forall (h : ∀ e, p e = true) :
    ∀ es : List Expr, everywhereArgs p es = true
  | [] => rfl
  | e :: rest => by
    rw [everywhereArgs, everywhere_of_forall h e, everywhereArgs_of_forall h rest]
    rfl

/-- What holds of all expressions holds of all parts of members. -/
theorem everywhereMembers_of_forall (h : ∀ e, p e = true) :
    ∀ ms : List ShapeMember, everywhereMembers p ms = true
  | [] => rfl
  | ⟨_, e⟩ :: rest => by
    rw [everywhereMembers, everywhere_of_forall h e, everywhereMembers_of_forall h rest]
    rfl

end

/-- A method or member of a value has a name that is allowed. -/
def nameAllowed (allowed : QualifiedName → Bool) : Expr → Bool
  | .call (some _) name _ | .member (some _) name => allowed name
  | _ => true

/-- All methods and members of values have names that are allowed. -/
def callsOnly (allowed : QualifiedName → Bool) (e : Expr) : Bool := e.everywhere (nameAllowed allowed)

variable {allowed : QualifiedName → Bool}

/-- Where all names are allowed every expression calls allowed ones only. -/
theorem callsOnly_true (e : Expr) : e.callsOnly (fun _ => true) = true :=
  everywhere_of_forall (fun e => by unfold nameAllowed; split <;> rfl) e

/-- A body calls methods and members by allowed names when it and its argument do so. -/
theorem callsOnly_inline {g : Lambda} {argument : Expr} (hbody : g.body.callsOnly allowed = true)
    (harg : argument.callsOnly allowed = true) : (g.inline argument).callsOnly allowed = true := by
  refine everywhere_inline (fun f e he hne => ?_) (fun _ => rfl) hbody harg
  cases e with
  | member receiver _ | call receiver _ _ =>
    cases receiver with
    | none => rfl
    | some _ => exact he
  | param name => exact absurd rfl (hne name)
  | _ => rfl

end Expr

end QueryPipeline
