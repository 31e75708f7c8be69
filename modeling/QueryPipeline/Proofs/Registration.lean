import Mathlib.Tactic.Common
import QueryPipeline.Functions.BuiltIn

/-!
# Who is asked for a function

Registering puts a provider behind the ones that were registered earlier and in front of the ones built in; the
count of the registered ones says where this is. A lookup asks the providers in their order, each once, up to the
first who does not answer "unknown". The answer or diagnostic of this one is what comes out, and no one behind it
is asked. To see who is asked, a lookup is run with questions that note it down.
-/

set_option autoImplicit false

namespace QueryPipeline

open Sql

/-- What is inserted behind the first part of a list stands between its two parts. -/
theorem insertIdx_length_append {α : Type} (before after : List α) (a : α) :
    (before ++ after).insertIdx before.length a = before ++ a :: after := by
  induction before with
  | nil => exact List.insertIdx_zero
  | cons b before ih => rw [List.cons_append, List.length_cons, List.insertIdx_succ_cons, ih, List.cons_append]

namespace FunctionRegistry

/-- The registry with some more providers, registered one after the other. -/
def registerAll (r : FunctionRegistry) (providers : List FunctionProvider) : FunctionRegistry :=
  providers.foldl register r

/-- A registry asks some providers that were registered and then some that are built in. -/
structure Arranges (r : FunctionRegistry) (registered builtIn : List FunctionProvider) : Prop where
  providers : r.providers = registered ++ builtIn
  registered : r.registered = registered.length

/-- The registry of a dialect asks the providers that are built in. -/
theorem ofDialect_arranges (dialect : Dialect) : (ofDialect dialect).Arranges [] (builtInProviders dialect) :=
  ⟨rfl, rfl⟩

variable {r : FunctionRegistry} {registered builtIn : List FunctionProvider}

/-- One more provider is the last one of those that were registered. -/
theorem Arranges.register (h : r.Arranges registered builtIn) (provider : FunctionProvider) :
    (r.register provider).Arranges (registered ++ [provider]) builtIn where
  providers := by
    show r.providers.insertIdx r.registered provider = _
    rw [h.providers, h.registered, insertIdx_length_append, List.append_assoc, List.singleton_append]
  registered := by
    show r.registered + 1 = _
    rw [h.registered, List.length_append, List.length_singleton]

/-- Providers that are registered are asked in this order, before those that are built in. -/
theorem Arranges.registerAll (h : r.Arranges registered builtIn) (providers : List FunctionProvider) :
    (r.registerAll providers).Arranges (registered ++ providers) builtIn := by
  induction providers generalizing r registered with
  | nil => rwa [List.append_nil]
  | cons provider rest ih =>
    rw [← List.singleton_append, ← List.append_assoc]
    exact ih (h.register provider)

end FunctionRegistry

section Asking

variable {ask : FunctionProvider → Answer}

/-- Providers are asked in an order: all of them, where no one knows, or else those up to the first one who does
not answer "unknown", and then the outcome is what this one answers. -/
inductive AskedInOrder (ask : FunctionProvider → Answer) (order : List FunctionProvider) :
    Answer → List FunctionProvider → Prop
  | unknown (h : ∀ p ∈ order, ask p = .unknown) : AskedInOrder ask order .unknown order
  | answered {before after : List FunctionProvider} {p : FunctionProvider}
      (horder : order = before ++ p :: after) (hbefore : ∀ q ∈ before, ask q = .unknown) (hp : ask p ≠ .unknown) :
      AskedInOrder ask order (ask p) (before ++ [p])

/-- A provider that does not know the function is asked before those that are asked next. -/
theorem AskedInOrder.cons {p : FunctionProvider} {rest asked : List FunctionProvider} {outcome : Answer}
    (hp : ask p = .unknown) (h : AskedInOrder ask rest outcome asked) :
    AskedInOrder ask (p :: rest) outcome (p :: asked) := by
  cases h with
  | unknown h => exact .unknown (List.forall_mem_cons.2 ⟨hp, h⟩)
  | answered horder hbefore hanswer =>
    exact .answered (congrArg (p :: ·) horder) (List.forall_mem_cons.2 ⟨hp, hbefore⟩) hanswer

/-- The outcome is a diagnostic only where someone has it and no one in front knows. -/
theorem AskedInOrder.of_error {order asked : List FunctionProvider} {outcome : Answer} {d : Diagnostic}
    (h : AskedInOrder ask order outcome asked) (hd : outcome = .error d) :
    ∃ before p after, order = before ++ p :: after ∧ (∀ q ∈ before, ask q = .unknown) ∧ ask p = .error d := by
  cases h with
  | unknown => cases hd
  | @answered before after p horder hbefore => exact ⟨before, p, after, horder, hbefore, hd⟩

/-- The question, with a note of who is asked. -/
def noting (ask : FunctionProvider → Answer) (provider : FunctionProvider) :
    ExceptT Diagnostic (StateM (List FunctionProvider)) (Option Scalar) :=
  .mk do
    modify (· ++ [provider])
    return ask provider

/-- The first answer of some providers, and the notes of who is asked behind the notes there are already. -/
def notedAnswer (ask : FunctionProvider → Answer) (providers notes : List FunctionProvider) :
    Answer × List FunctionProvider :=
  Id.run ((firstAnswer (noting ask) providers).run.run notes)

section Step

variable {p : FunctionProvider} (rest notes : List FunctionProvider)

/-- A provider that does not know the function leaves the answer to the next ones. -/
theorem firstAnswer_unknown (hp : ask p = .unknown) : firstAnswer ask (p :: rest) = firstAnswer ask rest := by
  rw [firstAnswer_cons, hp, Answer.unknown]

/-- A provider that knows the function gives the answer. -/
theorem firstAnswer_known (hp : ask p ≠ .unknown) : firstAnswer ask (p :: rest) = ask p := by
  rw [firstAnswer_cons]
  split
  · exact absurd ‹ask p = .ok none› hp
  · rfl

/-- A provider that does not know the function is noted down, and the next ones are asked. -/
theorem notedAnswer_unknown (hp : ask p = .unknown) :
    notedAnswer ask (p :: rest) notes = notedAnswer ask rest (notes ++ [p]) := by
  unfold notedAnswer firstAnswer
  rw [List.findSomeM?_cons, noting, hp]
  rfl

/-- A provider that knows the function is noted down, and no other one is asked. -/
theorem notedAnswer_known (hp : ask p ≠ .unknown) :
    notedAnswer ask (p :: rest) notes = (ask p, notes ++ [p]) := by
  unfold notedAnswer firstAnswer
  rw [List.findSomeM?_cons]
  unfold noting
  match h : ask p with
  | .error d => rfl
  | .ok (some s) => rfl
  | .ok none => exact absurd h hp

end Step

/-- Providers are asked in their order, and notes change nothing about the outcome. -/
theorem notedAnswer_inOrder (providers notes : List FunctionProvider) :
    ∃ asked, notedAnswer ask providers notes = (firstAnswer ask providers, notes ++ asked) ∧
      AskedInOrder ask providers (firstAnswer ask providers) asked := by
  induction providers generalizing notes with
  | nil => exact ⟨[], by rw [List.append_nil]; rfl, .unknown (List.forall_mem_nil _)⟩
  | cons p rest ih =>
    by_cases hp : ask p = .unknown
    · obtain ⟨asked, hnoted, hasked⟩ := ih (notes ++ [p])
      rw [notedAnswer_unknown rest notes hp, firstAnswer_unknown rest hp]
      exact ⟨p :: asked, by rw [hnoted, List.append_assoc, List.singleton_append], hasked.cons hp⟩
    · rw [notedAnswer_known rest notes hp, firstAnswer_known rest hp]
      exact ⟨[p], rfl, .answered (List.nil_append _).symm (List.forall_mem_nil _) hp⟩

end Asking

/-- A registry looks something up in an order. -/
structure FunctionRegistry.LooksUp (r : FunctionRegistry) (order : List FunctionProvider)
    (ask : FunctionProvider → Answer) (outcome : Answer) : Prop where
  /-- Run with notes, the lookup has the same outcome, and the providers are asked in this order. -/
  asked : ∃ asked, notedAnswer ask r.providers [] = (outcome, asked) ∧ AskedInOrder ask order outcome asked
  /-- A diagnostic comes out only where no provider before the one who has it knows. -/
  refused (d : Diagnostic) : outcome = .error d →
    ∃ before p after, order = before ++ p :: after ∧ (∀ q ∈ before, ask q = .unknown) ∧ ask p = .error d

/-- A registry looks a function up in the order of its providers. -/
theorem FunctionRegistry.looksUp_firstAnswer (r : FunctionRegistry) (ask : FunctionProvider → Answer) :
    r.LooksUp r.providers ask (firstAnswer ask r.providers) := by
  obtain ⟨asked, hnoted, hasked⟩ := @notedAnswer_inOrder ask r.providers []
  exact ⟨⟨asked, hnoted, hasked⟩, fun _ => hasked.of_error⟩

/-- In whatever sequence providers are registered in the registry of a dialect, they stand in this sequence in front
of the ones that the dialect has built in, and methods and members are looked up by asking all of these in their
order, each once, up to the first who answers or refuses. -/
theorem lookups_follow_registration (dialect : Dialect) (registered : List FunctionProvider)
    (catalog : Catalog) (receiver : Option Scalar) (name : QualifiedName) (args : List Scalar) :
    let r := (FunctionRegistry.ofDialect dialect).registerAll registered
    let order := registered ++ builtInProviders dialect
    r.Arranges registered (builtInProviders dialect) ∧
      r.LooksUp order (fun p => p.method catalog receiver name args) (r.method catalog receiver name args) ∧
      r.LooksUp order (fun p => p.member catalog receiver name) (r.member catalog receiver name) := by
  intro r order
  have harranges : r.Arranges registered (builtInProviders dialect) :=
    (FunctionRegistry.ofDialect_arranges dialect).registerAll registered
  have horder : r.providers = order := harranges.providers
  rw [← horder]
  exact ⟨harranges, r.looksUp_firstAnswer _, r.looksUp_firstAnswer _⟩

-- two functions of one name: the one registered first is asked before the other and before the one built in
example (catalog : Catalog) (s : Scalar) :
    let upper (sql : String) := CustomFunction.provider ⟨"string", "to_upper", sql, .text, false, none⟩
    ((FunctionRegistry.ofDialect .sqlite).registerAll [upper "SHOUT", upper "CRY"]).method catalog (some s)
      (.owned "string" "to_upper") [] = .given (catalog.function "SHOUT" [s] .text) := rfl

end QueryPipeline
