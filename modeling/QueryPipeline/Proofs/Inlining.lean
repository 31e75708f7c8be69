import QueryPipeline.Expr.Rewriting
import QueryPipeline.Proofs.Subexpressions

/-!
# Functions and their arguments

The body of a function with an argument in it is what is left of the body when its parameter gives way to
the argument, and this never fails. Everywhere else the body stays as it is, place by place. As the pipeline
language has no binders inside of expressions, substitutions compose: a function of a function of an argument
is one function of the argument, as long as the outer body does not mention the inner parameter.
-/

set_option autoImplicit false

namespace QueryPipeline

namespace Expr

/-- The expressions right inside of an expression, in order. -/
def operands : Expr → List Expr
  | .param _ | .constant _ | .parameter .. | .entity .. | .binding .. => []
  | .member receiver _ => receiver.toList
  | .shape members => members.map (·.expr)
  | .binary _ left right => [left, right]
  | .unary _ operand | .convert operand _ | .ensureNonEmpty operand => [operand]
  | .call receiver _ args => receiver.toList ++ args
  | .conditional test ifTrue ifFalse => [test, ifTrue, ifFalse]

/-- The expression at a place, which says for each step which of the operands to go to. -/
def at? (e : Expr) : List Nat → Option Expr
  | [] => some e
  | n :: rest => e.operands[n]?.bind (·.at? rest)

/-- What an expression is apart from its operands, of which only the number and the roles are left. -/
def form : Expr → Expr
  | .member receiver name => .member (receiver.map fun _ => default) name
  | .shape members => .shape (members.map fun m => ⟨m.name, default⟩)
  | .binary op _ _ => .binary op default default
  | .unary op _ => .unary op default
  | .call receiver function args =>
    .call (receiver.map fun _ => default) function (args.map fun _ => default)
  | .conditional _ _ _ => .conditional default default default
  | .convert _ type => .convert default type
  | .ensureNonEmpty _ => .ensureNonEmpty default
  | e => e

/-- The expression is another one than a parameter. -/
def isOtherThan (param : String) : Expr → Bool
  | .param name => name != param
  | _ => true

/-- A parameter is not mentioned anywhere in an expression. -/
def avoids (param : String) (e : Expr) : Bool := e.everywhere (isOtherThan param)

section Replacement

variable {f g : String → Expr}

/-- Arguments get others in the place of their parameters one by one. -/
theorem mapParamsArgs_eq (args : List Expr) : mapParamsArgs f args = args.map (mapParams f) := by
  induction args with
  | nil => rfl
  | cons e rest ih => rw [mapParamsArgs, ih, List.map_cons]

/-- Members of a shape get others in the place of their parameters one by one, under their names. -/
theorem mapParamsMembers_eq (members : List ShapeMember) :
    mapParamsMembers f members = members.map fun m => ⟨m.name, m.expr.mapParams f⟩ := by
  induction members with
  | nil => rfl
  | cons m rest ih =>
    obtain ⟨name, e⟩ := m
    rw [mapParamsMembers, ih, List.map_cons]

/-- A replacement goes on to the operands. -/
theorem operands_mapParams {e : Expr} (h : ∀ name, e ≠ .param name) :
    (e.mapParams f).operands = e.operands.map (mapParams f) := by
  cases e with
  | param name => exact absurd rfl (h name)
  | member receiver _ => cases receiver <;> rfl
  | shape members => simp [operands, mapParams, mapParamsMembers_eq, Function.comp_def]
  | call receiver _ args => cases receiver <;> simp [operands, mapParams, mapParamsReceiver, mapParamsArgs_eq]
  | _ => rfl

/-- A replacement leaves all of an expression but its operands as it is. -/
theorem form_mapParams {e : Expr} (h : ∀ name, e ≠ .param name) : (e.mapParams f).form = e.form := by
  cases e with
  | param name => exact absurd rfl (h name)
  | member receiver _ => cases receiver <;> rfl
  | shape members => simp [form, mapParams, mapParamsMembers_eq, Function.comp_def]
  | call receiver _ args =>
    cases receiver <;> simp [form, mapParams, mapParamsReceiver, mapParamsArgs_eq, Function.comp_def]
  | _ => rfl

/-- After a replacement the same places lead to the parts with the replacement made in them. -/
theorem at?_mapParams {e part : Expr} {place : List Nat} (h : e.at? place = some part) :
    (e.mapParams f).at? place = some (part.mapParams f) := by
  induction place generalizing e with
  | nil =>
    obtain rfl : e = part := Option.some.inj h
    rfl
  | cons n rest ih =>
    obtain ⟨operand, hoperand, hrest⟩ := Option.bind_eq_some_iff.1 h
    have hparam : ∀ name, e ≠ .param name := by
      rintro name rfl
      simp [operands] at hoperand
    rw [at?, operands_mapParams hparam, List.getElem?_map, hoperand]
    exact ih hrest

mutual

/-- Two replacements one after the other are one. -/
theorem mapParams_mapParams : ∀ e : Expr,
    (e.mapParams f).mapParams g = e.mapParams fun name => (f name).mapParams g
  | .param _ | .constant _ | .parameter _ _ | .entity _ _ | .binding _ _ => rfl
  | .member receiver _ => by
    simp only [mapParams, mapParamsReceiver_mapParamsReceiver receiver]
  | .shape members => by simp only [mapParams, mapParamsMembers_mapParamsMembers members]
  | .binary _ left right => by simp only [mapParams, mapParams_mapParams left, mapParams_mapParams right]
  | .unary _ operand | .convert operand _ | .ensureNonEmpty operand => by
    simp only [mapParams, mapParams_mapParams operand]
  | .call receiver _ args => by
    simp only [mapParams, mapParamsReceiver_mapParamsReceiver receiver, mapParamsArgs_mapParamsArgs args]
  | .conditional test ifTrue ifFalse => by
    simp only [mapParams, mapParams_mapParams test, mapParams_mapParams ifTrue, mapParams_mapParams ifFalse]

/-- Two replacements in the value that a member belongs to are one. -/
theorem mapParamsReceiver_mapParamsReceiver : ∀ r : Option Expr,
    mapParamsReceiver g (mapParamsReceiver f r) = mapParamsReceiver (fun name => (f name).mapParams g) r
  | none => rfl
  | some e => by simp only [mapParamsReceiver, mapParams_mapParams e]

/-- Two replacements in arguments are one. -/
theorem mapParamsArgs_mapParamsArgs : ∀ es : List Expr,
    mapParamsArgs g (mapParamsArgs f es) = mapParamsArgs (fun name => (f name).mapParams g) es
  | [] => rfl
  | e :: rest => by simp only [mapParamsArgs, mapParams_mapParams e, mapParamsArgs_mapParamsArgs rest]

/-- Two replacements in the members of a shape are one. -/
theorem mapParamsMembers_mapParamsMembers : ∀ ms : List ShapeMember,
    mapParamsMembers g (mapParamsMembers f ms) = mapParamsMembers (fun name => (f name).mapParams g) ms
  | [] => rfl
  | ⟨_, e⟩ :: rest => by
    simp only [mapParamsMembers, mapParams_mapParams e, mapParamsMembers_mapParamsMembers rest]

end

section Congruence

variable {p : Expr → Bool}

mutual

/-- Two replacements that do the same to the parameters of an expression do the same to it. -/
theorem mapParams_congr (hfg : ∀ name, p (.param name) = true → f name = g name) :
    ∀ e : Expr, e.everywhere p = true → e.mapParams f = e.mapParams g
  | .param name => hfg name
  | .constant _ | .parameter _ _ | .entity _ _ | .binding _ _ => fun _ => rfl
  | .member receiver _ => by
    intro h
    simp only [everywhere, Bool.and_eq_true] at h
    simp only [mapParams, mapParamsReceiver_congr hfg receiver h.2]
  | .shape members => by
    intro h
    simp only [everywhere, Bool.and_eq_true] at h
    simp only [mapParams, mapParamsMembers_congr hfg members h.2]
  | .binary _ left right => by
    intro h
    simp only [everywhere, Bool.and_eq_true] at h
    simp only [mapParams, mapParams_congr hfg left h.1.2, mapParams_congr hfg right h.2]
  | .unary _ operand | .convert operand _ | .ensureNonEmpty operand => by
    intro h
    simp only [everywhere, Bool.and_eq_true] at h
    simp only [mapParams, mapParams_congr hfg operand h.2]
  | .call receiver _ args => by
    intro h
    simp only [everywhere, Bool.and_eq_true] at h
    simp only [mapParams, mapParamsReceiver_congr hfg receiver h.1.2, mapParamsArgs_congr hfg args h.2]
  | .conditional test ifTrue ifFalse => by
    intro h
    simp only [everywhere, Bool.and_eq_true] at h
    simp only [mapParams, mapParams_congr hfg test h.1.1.2, mapParams_congr hfg ifTrue h.1.2,
      mapParams_congr hfg ifFalse h.2]

/-- In the value that a member belongs to, only parameters that occur in it matter. -/
theorem mapParamsReceiver_congr (hfg : ∀ name, p (.param name) = true → f name = g name) :
    ∀ r : Option Expr, everywhereReceiver p r = true → mapParamsReceiver f r = mapParamsReceiver g r
  | none => fun _ => rfl
  | some e => fun h => congrArg some (mapParams_congr hfg e h)

/-- In arguments, only parameters that occur in them matter. -/
theorem mapParamsArgs_congr (hfg : ∀ name, p (.param name) = true → f name = g name) :
    ∀ es : List Expr, everywhereArgs p es = true → mapParamsArgs f es = mapParamsArgs g es
  | [] => fun _ => rfl
  | e :: rest => by
    intro h
    simp only [everywhereArgs, Bool.and_eq_true] at h
    simp only [mapParamsArgs, mapParams_congr hfg e h.1, mapParamsArgs_congr hfg rest h.2]

/-- In the members of a shape, only parameters that occur in them matter. -/
theorem mapParamsMembers_congr (hfg : ∀ name, p (.param name) = true → f name = g name) :
    ∀ ms : List ShapeMember, everywhereMembers p ms = true →
      mapParamsMembers f ms = mapParamsMembers g ms
  | [] => fun _ => rfl
  | ⟨_, e⟩ :: rest => by
    intro h
    simp only [everywhereMembers, Bool.and_eq_true] at h
    simp only [mapParamsMembers, mapParams_congr hfg e h.1, mapParamsMembers_congr hfg rest h.2]

end

end Congruence

section Rewriting

/-- A rewriting only has to do with parameters, which it replaces. -/
structure Replaces (r : Rewriting) (f : String → Expr) : Prop where
  param : ∀ name, (r (.param name)).getD (.ok (.param name)) = .ok (f name)
  rest : ∀ e : Expr, (∀ name, e ≠ .param name) → r e = none

variable {r : Rewriting}

mutual

/-- A rewriting that only has to do with parameters never fails. -/
theorem rewrite_eq_mapParams (h : Replaces r f) : ∀ e : Expr, e.rewrite r = .ok (e.mapParams f)
  | .param name => h.param name
  | .constant value => by rw [rewrite, h.rest (.constant value) nofun, mapParams, Option.getD_none]
  | .parameter name type => by
    rw [rewrite, h.rest (.parameter name type) nofun, mapParams, Option.getD_none]
  | .entity name path => by rw [rewrite, h.rest (.entity name path) nofun, mapParams, Option.getD_none]
  | .binding path type => by rw [rewrite, h.rest (.binding path type) nofun, mapParams, Option.getD_none]
  | .member receiver name => by
    rw [rewrite, h.rest (.member receiver name) nofun, rewriteReceiver_eq_mapParams h receiver]
    rfl
  | .shape members => by
    rw [rewrite, h.rest (.shape members) nofun, rewriteMembers_eq_mapParams h members]
    rfl
  | .binary op left right => by
    rw [rewrite, h.rest (.binary op left right) nofun, rewrite_eq_mapParams h left,
      rewrite_eq_mapParams h right]
    rfl
  | .unary op operand => by
    rw [rewrite, h.rest (.unary op operand) nofun, rewrite_eq_mapParams h operand]
    rfl
  | .convert operand type => by
    rw [rewrite, h.rest (.convert operand type) nofun, rewrite_eq_mapParams h operand]
    rfl
  | .ensureNonEmpty inner => by
    rw [rewrite, h.rest (.ensureNonEmpty inner) nofun, rewrite_eq_mapParams h inner]
    rfl
  | .call receiver function args => by
    rw [rewrite, h.rest (.call receiver function args) nofun,
      rewriteReceiver_eq_mapParams h receiver, rewriteArgs_eq_mapParams h args]
    rfl
  | .conditional test ifTrue ifFalse => by
    rw [rewrite, h.rest (.conditional test ifTrue ifFalse) nofun,
      rewrite_eq_mapParams h test, rewrite_eq_mapParams h ifTrue,
      rewrite_eq_mapParams h ifFalse]
    rfl

/-- A rewriting of parameters puts others in their place in the value that a member belongs to. -/
theorem rewriteReceiver_eq_mapParams (h : Replaces r f) : ∀ receiver : Option Expr,
    rewriteReceiver r receiver = .ok (mapParamsReceiver f receiver)
  | none => rfl
  | some e => by
    rw [rewriteReceiver, rewrite_eq_mapParams h e]
    rfl

/-- A rewriting of parameters puts others in their place in arguments. -/
theorem rewriteArgs_eq_mapParams (h : Replaces r f) : ∀ es : List Expr,
    rewriteArgs r es = .ok (mapParamsArgs f es)
  | [] => rfl
  | e :: rest => by
    rw [rewriteArgs, rewrite_eq_mapParams h e, rewriteArgs_eq_mapParams h rest]
    rfl

/-- A rewriting of parameters puts others in their place in the members of a shape. -/
theorem rewriteMembers_eq_mapParams (h : Replaces r f) : ∀ ms : List ShapeMember,
    rewriteMembers r ms = .ok (mapParamsMembers f ms)
  | [] => rfl
  | ⟨_, e⟩ :: rest => by
    rw [rewriteMembers, rewrite_eq_mapParams h e, rewriteMembers_eq_mapParams h rest]
    rfl

end

end Rewriting

/-- A rewriting of nothing leaves an expression as it is. -/
theorem rewrite_nothing (e : Expr) : e.rewrite .nothing = .ok e := by
  have hrewrite : e.rewrite .nothing = .ok (e.mapParams .param) :=
    rewrite_eq_mapParams ⟨fun _ => rfl, fun _ _ => rfl⟩ e
  rwa [mapParams_param] at hrewrite

/-- A rewriting of one parameter is a substitution. -/
theorem rewrite_ofParam (param : String) (replacement e : Expr) :
    e.rewrite (.ofParam param replacement) = .ok (substitute param replacement e) := by
  refine rewrite_eq_mapParams ⟨fun name => ?_, fun e he => ?_⟩ e
  · show (if name = param then some (Except.ok replacement) else none).getD _ = _
    split <;> rfl
  · cases e with
    | param name => exact absurd rfl (he name)
    | _ => rfl

/-- A parameter is mentioned nowhere once something without it has taken its place. -/
theorem avoids_substitute {param : String} {replacement : Expr} (h : replacement.avoids param = true)
    (e : Expr) : (substitute param replacement e).avoids param = true := by
  refine everywhere_mapParams (p := fun _ => true) (fun e _ he => ?_) (fun name _ => ?_) e
    (everywhere_of_forall (fun _ => rfl) e)
  · cases e with
    | param name => exact absurd rfl (he name)
    | _ => rfl
  · split
    · exact h
    · rename_i hname
      simpa [everywhere, isOtherThan] using hname

/-- A substitution does nothing to an expression that does not mention the parameter. -/
theorem substitute_of_avoids {param : String} {e : Expr} (h : e.avoids param = true) (replacement : Expr) :
    substitute param replacement e = e := by
  have hsame : e.mapParams (fun name => if name = param then replacement else .param name) =
      e.mapParams .param :=
    mapParams_congr (fun name hname => if_neg (by simpa [isOtherThan] using hname)) e h
  rwa [mapParams_param] at hsame

end Replacement

end Expr

namespace Lambda

/-- A function of a function of an argument is a function of the argument, unless the outer body mentions
the inner parameter apart from its own. -/
theorem inline_inline {f g : Lambda} (h : g.param = f.param ∨ g.body.avoids f.param = true)
    (argument : Expr) :
    g.inline (f.inline argument) = Lambda.inline ⟨f.param, g.inline f.body⟩ argument := by
  unfold inline Expr.substitute
  rw [Expr.mapParams_mapParams]
  -- the two replacements differ at most at the inner parameter, which the outer body does not mention
  have hagree (name : String) (hname : name = g.param ∨ name ≠ f.param) :
      (if name = g.param then f.body.mapParams fun n => if n = f.param then argument else .param n
        else .param name) =
      (if name = g.param then f.body else .param name).mapParams
        fun n => if n = f.param then argument else .param n := by
    rcases hname with rfl | hname
    · simp only [if_true]
    · split
      · rfl
      · simp only [Expr.mapParams, if_neg hname]
  rcases h with heq | havoids
  · refine Expr.mapParams_congr (p := fun _ => true) (fun name _ => hagree name ?_) g.body
      (Expr.everywhere_of_forall (fun _ => rfl) g.body)
    rw [heq]
    exact Decidable.em _
  · refine Expr.mapParams_congr (fun name hname => hagree name (.inr ?_)) g.body havoids
    simpa [Expr.isOtherThan] using hname

/-- The body of a function with an argument in it. -/
structure Inlined (f : Lambda) (argument outcome : Expr) : Prop where
  /-- The argument stands where the parameter was. -/
  argument_at : ∀ place, f.body.at? place = some (.param f.param) → outcome.at? place = some argument
  /-- Everything else is what it was, in its place. -/
  kept_at : ∀ place part, f.body.at? place = some part → part ≠ .param f.param →
    ∃ kept, outcome.at? place = some kept ∧ kept.form = part.form
  /-- A body that does not mention the parameter is the outcome itself. -/
  same : f.body.avoids f.param = true → outcome = f.body
  /-- The parameter is gone unless the argument brings it along. -/
  gone : argument.avoids f.param = true → outcome.avoids f.param = true

/-- The body with an argument in the place of its parameter is what inlining is to lead to. -/
theorem inlined_inline (f : Lambda) (argument : Expr) : f.Inlined argument (f.inline argument) where
  argument_at place hplace := by
    rw [inline, Expr.substitute, Expr.at?_mapParams hplace, Expr.mapParams, if_pos rfl]
  kept_at place part hplace hpart := by
    refine ⟨_, Expr.at?_mapParams hplace, ?_⟩
    by_cases hparam : ∃ name, part = .param name
    · obtain ⟨name, rfl⟩ := hparam
      have hname : name ≠ f.param := fun h => hpart (h ▸ rfl)
      rw [Expr.mapParams, if_neg hname]
    · exact Expr.form_mapParams fun name h => hparam ⟨name, h⟩
  same h := Expr.substitute_of_avoids h argument
  gone h := Expr.avoids_substitute h f.body

/-- The body of a function with an argument in it is the outcome of a rewriting, which succeeds. The argument
stands in the places of the parameter and everything else stays in its place. A function of a function of an
argument is one function of it, unless the outer body mentions the inner parameter. Where nothing gives way a
rewriting changes nothing. -/
theorem inline_substitutes (f : Lambda) (argument : Expr) :
    f.body.rewrite (.ofParam f.param argument) = .ok (f.inline argument) ∧
      f.Inlined argument (f.inline argument) ∧
      (∀ g : Lambda, (g.param = f.param ∨ g.body.avoids f.param = true) →
        g.inline (f.inline argument) = Lambda.inline ⟨f.param, g.inline f.body⟩ argument) ∧
      ∀ e : Expr, e.rewrite .nothing = .ok e :=
  ⟨Expr.rewrite_ofParam f.param argument f.body, inlined_inline f argument,
    fun _ hg => inline_inline hg argument, Expr.rewrite_nothing⟩

/-- `x => x.Age == x.Height`. -/
def ageIsHeight : Lambda :=
  ⟨"x", .binary .eq (.member (some (.param "x")) (.plain "Age"))
    (.member (some (.param "x")) (.plain "Height"))⟩

/-- `y => !y`. -/
def negation : Lambda := ⟨"y", .unary .not (.param "y")⟩

/-- A person in the place of `x` is in two places, around which the names stay, and it makes no difference
whether the outcome is negated or the function was before. -/
theorem ageIsHeight_substitutes : let person := Expr.entity "Person" .root
    let outcome := ageIsHeight.inline person
    ageIsHeight.body.rewrite (.ofParam "x" person) = .ok outcome ∧
      outcome.at? [0, 0] = some person ∧ outcome.at? [1, 0] = some person ∧
      (∃ age, outcome.at? [0] = some age ∧ age.form = .member (some default) (.plain "Age")) ∧
      outcome.avoids "x" = true ∧
      negation.inline outcome = Lambda.inline ⟨"x", negation.inline ageIsHeight.body⟩ person := by
  intro person outcome
  obtain ⟨hrewrite, hin, hcompose, -⟩ := inline_substitutes ageIsHeight person
  have havoids : negation.body.avoids "x" = true := by decide
  exact ⟨hrewrite, hin.argument_at [0, 0] rfl, hin.argument_at [1, 0] rfl,
    hin.kept_at [0] (.member (some (.param "x")) (.plain "Age")) rfl nofun, hin.gone rfl,
    hcompose negation (.inr havoids)⟩

end Lambda

end QueryPipeline
